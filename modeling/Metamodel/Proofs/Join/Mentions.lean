import Metamodel.Proofs.Join.Literals

/-!
# Mentions and equalities

A conjunct is read twice: once for the names that stand in it between other characters, and once for the two sides of
its first operator.  The readings agree.  A conjunct that is a pair mentions the two attributes of the pair and nothing
else (`mentions_of_pair?`).  So a join with a pair references both of its ends, and only what is left as a filter can
mention a third class; both are kept when conjuncts are joined (`Coherent.append`).
-/

namespace Metamodel.Join

open Text (Spells exists_eq_trim isBlank trim trim_of_noBlank)

variable {related name member : String} {p : JoinPair} {text a b : List Char}

/-! ### Names between other characters -/

/-- The character ends a name with a dot in it. -/
def isSeparator (c : Char) : Bool :=
  !(isIdentifierPart c || c == '.')

/-- The attributes that a text without literals mentions. -/
def terms (cs : List Char) : List Term :=
  ((cs.splitOnP isSeparator).map Term.ofText).filter (· != .literal)

private theorem mentions_eq_terms (cs : List Char) : mentions cs = terms (unquoted false cs) := rfl

private theorem terms_append_cons (a b : List Char) {c : Char} (hc : isSeparator c = true) :
    terms (a ++ c :: b) = terms a ++ terms b := by
  rw [terms, List.splitOnP_append_cons _ _ hc, List.map_append, List.filter_append]
  rfl

private theorem terms_cons {c : Char} (hc : isSeparator c = true) (cs : List Char) : terms (c :: cs) = terms cs :=
  terms_append_cons [] cs hc

private theorem terms_append_of_separators (h : ∀ c ∈ a, isSeparator c = true) (b : List Char) : terms
    (a ++ b) = terms b := by
  induction a with
  | nil => rfl
  | cons c a ih =>
    obtain ⟨hc, ha⟩ := List.forall_mem_cons.1 h
    rw [List.cons_append, terms_cons hc, ih ha]

/-- What separators stand between is mentioned apart. -/
private theorem terms_append_append {gap : List Char} (h : ∀ c ∈ gap, isSeparator c = true) (hne : gap ≠ [])
    (a b : List Char) : terms (a ++ (gap ++ b)) = terms a ++ terms b := by
  cases gap with
  | nil => exact absurd rfl hne
  | cons c gap =>
    obtain ⟨hc, hgap⟩ := List.forall_mem_cons.1 h
    rw [List.cons_append, terms_append_cons _ _ hc, terms_append_of_separators hgap]

private theorem terms_append_separators {gap : List Char} (h : ∀ c ∈ gap, isSeparator c = true) (a : List Char) :
    terms (a ++ gap) = terms a := by
  cases gap with
  | nil => rw [List.append_nil]
  | cons c gap =>
    have hnone : terms (c :: gap) = [] := by
      rw [← List.append_nil (c :: gap), terms_append_of_separators h]
      rfl
    rw [← List.append_nil (c :: gap), terms_append_append h (List.cons_ne_nil c gap)]
    exact List.append_nil _

private theorem isSeparator_of_isBlank {c : Char} (h : isBlank c = true) : isSeparator c = true := by
  have hpart : isIdentifierPart c = false := Bool.eq_false_iff.2 fun hpart => by
    rw [(isPlain_of_isIdentifierPart hpart).isBlank] at h
    cases h
  have hdot : c ≠ '.' := by
    rintro rfl
    cases h
  simp [isSeparator, hpart, hdot]

/-- A mention is one term. -/
private theorem terms_mention (h : IsMention name member) (hterm : Term.ofText (mention name member) ≠ .literal) :
    terms (mention name member) = [Term.ofText (mention name member)] := by
  have hwhole : ∀ c ∈ mention name member, isSeparator c = false := by
    have hpart : ∀ c, isIdentifierPart c = true → isSeparator c = false := fun c hc => by
      rw [isSeparator, hc]
      rfl
    intro c hc
    rcases List.mem_append.1 hc with hc | hc
    · exact hpart c (isIdentifierPart_of_mem h.name c hc)
    · rcases List.mem_cons.1 hc with rfl | hc
      · rfl
      · exact hpart c (isIdentifierPart_of_mem h.member c hc)
  rw [terms, List.splitOnP_eq_singleton hwhole, List.map_singleton,
    List.filter_cons_of_pos (by simpa using hterm), List.filter_nil]

/-! ### The terms of an equality -/

/-- The two sides of an equality stand between parentheses, blanks and the equals sign. -/
private theorem exists_of_spells_equality {l r : List Char} {n : Nat} (h : Spells (enclosed n [l, ['='], r]) text) :
    ∃ before between after, text = before ++ (l ++ (between ++ (r ++ after))) ∧
      (∀ c ∈ before ++ between ++ after, isSeparator c = true) ∧ between ≠ [] := by
  have hblank : ∀ {gap : List Char}, Text.AllBlank gap → ∀ c ∈ gap, isSeparator c = true :=
    fun hgap c hc => isSeparator_of_isBlank (hgap c hc)
  induction n generalizing text with
  | zero =>
    replace h : Spells [l, ['='], r] text := by simpa [enclosed] using h
    cases h with
    | @cons g₁ _ _ _ h₁ hrest =>
      cases hrest with
      | @cons g₂ _ _ _ h₂ hrest =>
        cases hrest with
        | @cons g₃ _ g₄ _ h₃ hrest =>
          cases hrest with
          | nil h₄ =>
            refine ⟨g₁, g₂ ++ '=' :: g₃, g₄, by simp, ?_, by simp⟩
            have hsign : isSeparator '=' = true := by decide
            simp only [List.forall_mem_append, List.forall_mem_cons]
            exact ⟨⟨hblank h₁, hblank h₂, hsign, hblank h₃⟩, hblank h₄⟩
  | succ n ih =>
    rw [enclosed_succ] at h
    obtain ⟨inner, htrim, -, hinner⟩ := exists_of_spells_parens h
    obtain ⟨left, right, heq, hleft, hright⟩ := exists_eq_trim text
    obtain ⟨before, between, after, rfl, hseparators, hne⟩ := ih hinner
    refine ⟨left ++ '(' :: before, between, after ++ ')' :: right, ?_, ?_, hne⟩
    · rw [heq, htrim]
      simp
    · have hparens : isSeparator '(' = true ∧ isSeparator ')' = true := by decide
      simp only [List.forall_mem_append, List.forall_mem_cons] at hseparators ⊢
      obtain ⟨⟨hbefore, hbetween⟩, hafter⟩ := hseparators
      exact ⟨⟨⟨hblank hleft, hparens.1, hbefore⟩, hbetween⟩, hafter, hparens.2, hblank hright⟩

private theorem terms_of_spells_equality {l r : List Char} {n : Nat} (h : Spells (enclosed n [l, ['='], r]) text) :
    terms text = terms l ++ terms r := by
  obtain ⟨before, between, after, rfl, hseparators, hne⟩ := exists_of_spells_equality h
  simp only [List.forall_mem_append] at hseparators
  obtain ⟨⟨hbefore, hbetween⟩, hafter⟩ := hseparators
  rw [terms_append_of_separators hbefore, terms_append_append hbetween hne, terms_append_separators hafter]

/-! ### Pairs -/

private theorem unquoted_eq_self (h : '\'' ∉ a) : unquoted false a = a := by
  induction a with
  | nil => rfl
  | cons c a ih =>
    have hc : c ≠ '\'' := fun hc => h (hc ▸ List.mem_cons_self)
    rw [unquoted, if_neg hc, if_neg Bool.false_ne_true, ih fun ha => h (List.mem_cons_of_mem c ha)]

/-- No class is called `this`. -/
private theorem ne_this_of_ofText (h : Term.ofText text = .ofClass name member) : name ≠ "this" := by
  rintro rfl
  obtain ⟨hmention, htrim⟩ := trim_of_ofText_ofClass h
  rw [hmention.ofText_of_trim htrim, if_pos rfl] at h
  cases h

private theorem ne_this_of_pair? (h : pair? related text = some p) : related ≠ "this" := by
  rcases pair?_eq_some_iff.1 h with h | h
  · obtain ⟨-, right, -, -, hright⟩ := exists_of_equality? h
    exact ne_this_of_ofText hright
  · obtain ⟨left, -, -, hleft, -⟩ := exists_of_equality? h
    exact ne_this_of_ofText hleft

/-- A conjunct that is a pair mentions the two attributes of the pair, and nothing else. -/
theorem mentions_of_pair? (h : pair? related text = some p) :
    (mentions text).Perm [.this p.thisAttribute, .ofClass related p.relatedAttribute] := by
  obtain ⟨hthis, hother, n, hspelled⟩ := equates_of_pair? h
  have hterms : ∀ {name member : String} {t : Term}, IsMention name member →
      (if name = "this" then .this member else .ofClass name member) = t → t ≠ .literal →
      terms (mention name member) = [t] := by
    intro name member t hmention ht hliteral
    have htrim : trim (mention name member) = mention name member := by
      have hnone : Text.AllBlank [] := by simp [Text.AllBlank]
      simpa using trim_of_noBlank hnone hmention.noBlank hnone
    have hread := (hmention.ofText_of_trim htrim).trans ht
    rw [terms_mention hmention (hread ▸ hliteral), hread]
  have hleft := hterms hthis (if_pos rfl) Term.noConfusion
  have hright := hterms hother (if_neg (ne_this_of_pair? h)) Term.noConfusion
  have hquote : '\'' ∉ text := fun hquote => by
    rw [pair?_eq_none_of_quote hquote] at h
    cases h
  rw [mentions_eq_terms, unquoted_eq_self hquote]
  rcases hspelled with hspelled | hspelled
  · rw [terms_of_spells_equality hspelled, hleft, hright]
    exact .refl _
  · rw [terms_of_spells_equality hspelled, hleft, hright]
    exact .swap ..

/-! ### Joins -/

private theorem nodup_eraseDups (xs : List String) : xs.eraseDups.Nodup := by
  induction hn : xs.length using Nat.strong_induction_on generalizing xs with
  | _ n ih =>
    cases xs with
    | nil => exact List.nodup_nil
    | cons x xs =>
      have hless : (xs.filter fun y => !y == x).length < n := by
        rw [← hn]
        exact Nat.lt_succ_of_le (List.length_filter_le _ xs)
      rw [List.eraseDups_cons, List.nodup_cons]
      exact ⟨by simp, ih _ hless _ rfl⟩

/-- What a join holds and what it references fit together. -/
structure Coherent (related : String) (j : Join) : Prop where
  ends : j.pairs ≠ [] → j.referencesThis = true ∧ j.referencesRelated = true
  others : j.otherClasses ≠ [] → j.filters ≠ []
  plain : j.filters = [] → j.referencesThis = true ∨ j.referencesRelated = true → j.pairs ≠ []
  nodup : j.otherClasses.Nodup
  foreign : ∀ name ∈ j.otherClasses, name ≠ "this" ∧ name ≠ related

namespace Coherent

theorem empty (related : String) : Coherent related empty where
  ends h := absurd rfl h
  others h := absurd rfl h
  plain _ h := by simp [Join.empty] at h
  nodup := List.nodup_nil
  foreign _ h := absurd h List.not_mem_nil

theorem append {j k : Join} (hj : Coherent related j) (hk : Coherent related k) : Coherent related (j.append k) where
  ends h := by
    simp only [Join.append, ne_eq, List.append_eq_nil_iff, not_and_or] at h
    simp only [Join.append, Bool.or_eq_true]
    rcases h with h | h
    · exact ⟨.inl (hj.ends h).1, .inl (hj.ends h).2⟩
    · exact ⟨.inr (hk.ends h).1, .inr (hk.ends h).2⟩
  others h := by
    simp only [Join.append, ne_eq, List.append_eq_nil_iff, not_and_or] at h ⊢
    rcases h with h | h
    · exact .inl (hj.others h)
    · refine .inr (hk.others ?_)
      rintro hnone
      rw [hnone] at h
      exact h rfl
  plain hfilters hreferences := by
    simp only [Join.append, List.append_eq_nil_iff] at hfilters
    simp only [Join.append, Bool.or_eq_true] at hreferences
    simp only [Join.append, ne_eq, List.append_eq_nil_iff, not_and_or]
    rcases hreferences with (h | h) | (h | h)
    · exact .inl (hj.plain hfilters.1 (.inl h))
    · exact .inr (hk.plain hfilters.2 (.inl h))
    · exact .inl (hj.plain hfilters.1 (.inr h))
    · exact .inr (hk.plain hfilters.2 (.inr h))
  nodup := by
    refine List.nodup_append.2 ⟨hj.nodup, hk.nodup.filter _, fun name hleft other hright heq => ?_⟩
    subst heq
    simp [hleft] at hright
  foreign name h := by
    rcases List.mem_append.1 h with h | h
    · exact hj.foreign name h
    · exact hk.foreign name (List.mem_filter.1 h).1

/-- A conjunct that is a pair has no filter and mentions no third class; another is a filter. -/
theorem ofConjunct (related : String) (c : List Char) : Coherent related (ofConjunct related c) := by
  have hclass : ∀ name ∈ (Join.ofConjunct related c).otherClasses,
      name ≠ related ∧ ∃ member, .ofClass name member ∈ mentions c := by
    intro name h
    simp only [Join.ofConjunct, List.mem_eraseDups, List.mem_filter, List.mem_filterMap, bne_iff_ne] at h
    obtain ⟨⟨t, ht, hname⟩, hne⟩ := h
    cases t <;> simp only [Term.className?, reduceCtorEq, Option.some.injEq] at hname
    subst hname
    exact ⟨hne, _, ht⟩
  have hforeign : ∀ name ∈ (Join.ofConjunct related c).otherClasses, name ≠ "this" ∧ name ≠ related := by
    intro name h
    obtain ⟨hne, member, ht⟩ := hclass name h
    obtain ⟨piece, -, hpiece⟩ := List.mem_map.1 (List.mem_filter.1 ht).1
    exact ⟨ne_this_of_ofText hpiece, hne⟩
  cases hpair : pair? related c with
  | none =>
    have hpairs : (Join.ofConjunct related c).pairs = [] := by simp [Join.ofConjunct, hpair]
    have hfilters : (Join.ofConjunct related c).filters ≠ [] := by simp [Join.ofConjunct, hpair]
    exact ⟨fun h => absurd hpairs h, fun _ => hfilters, fun h => absurd h hfilters, nodup_eraseDups _, hforeign⟩
  | some p =>
    have hmentions := mentions_of_pair? hpair
    have hnone : (Join.ofConjunct related c).otherClasses = [] := by
      refine List.eq_nil_iff_forall_not_mem.2 fun name h => ?_
      obtain ⟨hne, member, ht⟩ := hclass name h
      have hsame := hmentions.mem_iff.1 ht
      simp only [List.mem_cons, reduceCtorEq, Term.ofClass.injEq, List.not_mem_nil, or_false, false_or] at hsame
      exact hne hsame.1
    have hthis : (Join.ofConjunct related c).referencesThis = true :=
      List.any_eq_true.2 ⟨_, hmentions.mem_iff.2 List.mem_cons_self, rfl⟩
    have hrelated : (Join.ofConjunct related c).referencesRelated = true := by
      have hmem : .ofClass related p.relatedAttribute ∈ mentions c :=
        hmentions.mem_iff.2 (List.mem_cons_of_mem _ List.mem_cons_self)
      exact List.contains_iff_mem.2 (List.mem_filterMap.2 ⟨_, hmem, rfl⟩)
    have hpairs : (Join.ofConjunct related c).pairs ≠ [] := by simp [Join.ofConjunct, hpair]
    exact ⟨fun _ => ⟨hthis, hrelated⟩, fun h => absurd hnone h, fun _ _ => hpairs, nodup_eraseDups _, hforeign⟩

end Coherent

private theorem coherent_parse (query related : String) : Coherent related (parse query related) := by
  refine List.foldlRecOn _ append (motive := Coherent related) (.empty related) fun j hj k hk => ?_
  obtain ⟨c, -, rfl⟩ := List.mem_map.1 hk
  exact hj.append (.ofConjunct related c)

/-- A join with a pair references both of its ends, and one without filters does so just if it has a pair.  A join that
mentions a third class has a filter.  The third classes are mentioned once, and neither end is among them. -/
theorem references_of_parse (query related : String) :
    ((parse query related).pairs ≠ [] →
      (parse query related).referencesThis = true ∧ (parse query related).referencesRelated = true) ∧
    ((parse query related).otherClasses ≠ [] → (parse query related).filters ≠ []) ∧
    ((parse query related).filters = [] →
      ((parse query related).referencesThis = true ∧ (parse query related).referencesRelated = true ↔
        (parse query related).pairs ≠ [])) ∧
    (parse query related).otherClasses.Nodup ∧ "this" ∉ (parse query related).otherClasses ∧
      related ∉ (parse query related).otherClasses := by
  have hj := coherent_parse query related
  refine ⟨hj.ends, hj.others, fun hfilters => ⟨fun h => hj.plain hfilters (.inl h.1), hj.ends⟩, hj.nodup, ?_, ?_⟩
  · exact fun h => (hj.foreign _ h).1 rfl
  · exact fun h => (hj.foreign _ h).2 rfl

/-- A pair in parentheses, and a filter that mentions a third class twice. -/
theorem references_of_thirdClass :
    let j := parse "(this.id = Item.owner) AND Desk.room > Desk.floor" "Item"
    j.pairs = [⟨"id", "owner"⟩] ∧ j.otherClasses = ["Desk"] ∧
      (j.referencesThis = true ∧ j.referencesRelated = true) ∧ j.filters ≠ [] := by
  intro j
  have hpairs : j.pairs = [⟨"id", "owner"⟩] := by decide +kernel
  have hclasses : j.otherClasses = ["Desk"] := by decide +kernel
  obtain ⟨hends, hothers, -⟩ := references_of_parse "(this.id = Item.owner) AND Desk.room > Desk.floor" "Item"
  exact ⟨hpairs, hclasses, hends (hpairs ▸ List.cons_ne_nil _ _), hothers (hclasses ▸ List.cons_ne_nil _ _)⟩

end Metamodel.Join
