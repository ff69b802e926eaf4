import Metamodel.Proofs.Join.Conjuncts

/-!
# The grammar of an equality

A conjunct is a pair just if it spells an equality of an attribute of `this` and one of the related class, either side
first, in any number of parentheses that match (`pair?_eq_some_iff_equates`).  It is found by taking away what encloses
it, going to the first operator, and reading the two sides, and each step takes a known part of the tokens.  White space
is no part of the grammar, so a query of one conjunct may be read for the conjunct (`parse_of_undivided`).
-/

namespace Metamodel.Join

open Text (AllBlank NoBlank Spells words trim isBlank spells_self spells_singleton spells_concat_iff words_trim
  trim_of_gaps trim_of_noBlank)

variable {related : String} {p : JoinPair} {text : List Char} {tokens : List (List Char)}

/-! ### Identifiers -/

/-- The character has no meaning but as a part of an identifier. -/
structure IsPlain (c : Char) : Prop where
  isBlank : isBlank c = false
  isOperator : isOperator c = false
  ne_dot : c ≠ '.'
  ne_quote : c ≠ '\''
  ne_open : c ≠ '('
  ne_close : c ≠ ')'

theorem isPlain_of_isIdentifierPart {c : Char} (h : isIdentifierPart c = true) : IsPlain c := by
  have hrange : (48 ≤ c.toNat ∧ c.toNat ≤ 57) ∨ (65 ≤ c.toNat ∧ c.toNat ≤ 90) ∨ (97 ≤ c.toNat ∧ c.toNat ≤ 122) ∨
      c.toNat = 95 ∨ c.toNat = 36 := by
    have hletter : c.isAlpha = (decide (65 ≤ c.val ∧ c.val ≤ 90) || (decide (97 ≤ c.val) && decide (c.val ≤ 122))) :=
      rfl
    simp only [isIdentifierPart, Char.isAlphanum, hletter, Char.isDigit, Bool.or_eq_true, Bool.and_eq_true,
      decide_eq_true_eq, beq_iff_eq] at h
    rcases h with (((h | h) | h) | rfl) | rfl
    · exact .inr (.inl h)
    · exact .inr (.inr (.inl h))
    · exact .inl h
    · exact .inr (.inr (.inr (.inl rfl)))
    · exact .inr (.inr (.inr (.inr rfl)))
  have hne : ∀ d : Char, c.toNat ≠ d.toNat → c ≠ d := fun d hd heq => hd (heq ▸ rfl)
  constructor
  · simp only [Text.isBlank, Bool.or_eq_false_iff, Bool.and_eq_false_iff, decide_eq_false_iff_not,
      beq_eq_false_iff_ne]
    omega
  · simp only [Join.isOperator, Bool.or_eq_false_iff, beq_eq_false_iff_ne]
    exact ⟨⟨⟨hne '=' (by simp; omega), hne '!' (by simp; omega)⟩, hne '<' (by simp; omega)⟩, hne '>' (by simp; omega)⟩
  · exact hne '.' (by simp; omega)
  · exact hne '\'' (by simp; omega)
  · exact hne '(' (by simp; omega)
  · exact hne ')' (by simp; omega)

theorem isIdentifierPart_of_mem {cs : List Char} (h : isIdentifier cs = true) : ∀ c ∈ cs, isIdentifierPart c = true := by
  cases cs with
  | nil => cases h
  | cons d cs =>
    simp only [isIdentifier, Bool.and_eq_true, List.all_eq_true] at h
    obtain ⟨hstart, hrest⟩ := h
    refine List.forall_mem_cons.2 ⟨?_, hrest⟩
    simp only [isIdentifierStart, isIdentifierPart, Char.isAlphanum, Bool.or_eq_true] at hstart ⊢
    rcases hstart with (h | h) | h
    · exact .inl (.inl (.inl h))
    · exact .inl (.inr h)
    · exact .inr h

private theorem isPlain_of_mem {cs : List Char} (h : isIdentifier cs = true) : ∀ c ∈ cs, IsPlain c :=
  fun c hc => isPlain_of_isIdentifierPart (isIdentifierPart_of_mem h c hc)

private theorem ne_nil_of_isIdentifier {cs : List Char} (h : isIdentifier cs = true) : cs ≠ [] := by
  rintro rfl
  cases h

/-! ### Mentions of attributes -/

def mention (name member : String) : List Char :=
  name.toList ++ '.' :: member.toList

/-- A mention, if both of its names are identifiers. -/
structure IsMention (name member : String) : Prop where
  name : isIdentifier name.toList = true
  member : isIdentifier member.toList = true

variable {name member : String}

namespace IsMention

variable (h : IsMention name member)

include h

/-- A mention has no blank, no operator, no quote and no parenthesis. -/
theorem isPlain_or (c : Char) (hc : c ∈ mention name member) : IsPlain c ∨ c = '.' := by
  rcases List.mem_append.1 hc with hc | hc
  · exact .inl (isPlain_of_mem h.name c hc)
  · rcases List.mem_cons.1 hc with rfl | hc
    · exact .inr rfl
    · exact .inl (isPlain_of_mem h.member c hc)

theorem noBlank : NoBlank (mention name member) := by
  intro c hc
  rcases h.isPlain_or c hc with hplain | rfl
  · exact hplain.isBlank
  · decide

private theorem isOperator_eq_false : ∀ c ∈ mention name member, isOperator c = false := by
  intro c hc
  rcases h.isPlain_or c hc with hplain | rfl
  · exact hplain.isOperator
  · decide

/-- A mention starts with a name. -/
private theorem exists_eq_cons : ∃ c rest, mention name member = c :: rest ∧ IsPlain c := by
  obtain ⟨c, cs, hcs⟩ := List.exists_cons_of_ne_nil (ne_nil_of_isIdentifier h.name)
  refine ⟨c, cs ++ '.' :: member.toList, by rw [mention, hcs]; rfl, isPlain_of_mem h.name c ?_⟩
  rw [hcs]
  exact List.mem_cons_self

private theorem takeWhile_dropWhile :
    (mention name member).takeWhile (· != '.') = name.toList ∧
      (mention name member).dropWhile (· != '.') = '.' :: member.toList := by
  have hname : ∀ c ∈ name.toList, (c != '.') = true := fun c hc => by
    simpa using (isPlain_of_mem h.name c hc).ne_dot
  rw [mention]
  refine ⟨?_, ?_⟩
  · rw [List.takeWhile_append_of_pos hname]
    simp
  · rw [List.dropWhile_append_of_pos hname]
    simp

theorem ofText_of_trim (htext : trim text = mention name member) :
    Term.ofText text = if name = "this" then .this member else .ofClass name member := by
  obtain ⟨htake, hdrop⟩ := h.takeWhile_dropWhile
  have hthis : (name.toList = "this".toList) = (name = "this") := by rw [String.toList_inj]
  simp only [Term.ofText, htext, htake, hdrop, h.name, h.member, Bool.and_self, if_true, String.ofList_toList, hthis]

end IsMention

/-- A text that is no literal is a mention with blanks around it. -/
private theorem exists_mention (h : Term.ofText text ≠ .literal) :
    ∃ name member, IsMention name member ∧ trim text = mention name member := by
  unfold Term.ofText at h
  dsimp only at h
  split at h
  · rename_i d rest hdrop
    split at h
    · rename_i hboth
      obtain ⟨hname, hmember⟩ := Bool.and_eq_true_iff.1 hboth
      have hdot : d = '.' := by
        have hstop := List.head?_dropWhile_not (· != '.') (trim text)
        rw [hdrop] at hstop
        simpa using hstop
      refine ⟨String.ofList ((trim text).takeWhile (· != '.')), String.ofList rest,
        ⟨by simpa using hname, by simpa⟩, ?_⟩
      subst hdot
      rw [mention, String.toList_ofList, String.toList_ofList, ← hdrop, List.takeWhile_append_dropWhile]
    · exact absurd rfl h
  · exact absurd rfl h

private theorem trim_of_ofText_this (h : Term.ofText text = .this member) :
    IsMention "this" member ∧ trim text = mention "this" member := by
  have hterm : Term.ofText text ≠ .literal := by
    rw [h]
    exact Term.noConfusion
  obtain ⟨name, member', hmention, htrim⟩ := exists_mention hterm
  rw [hmention.ofText_of_trim htrim] at h
  split at h
  · rename_i hname
    subst hname
    obtain rfl := Term.this.inj h
    exact ⟨hmention, htrim⟩
  · cases h

theorem trim_of_ofText_ofClass (h : Term.ofText text = .ofClass name member) :
    IsMention name member ∧ trim text = mention name member := by
  have hterm : Term.ofText text ≠ .literal := by
    rw [h]
    exact Term.noConfusion
  obtain ⟨name', member', hmention, htrim⟩ := exists_mention hterm
  rw [hmention.ofText_of_trim htrim] at h
  split at h
  · cases h
  · obtain ⟨rfl, rfl⟩ := Term.ofClass.inj h
    exact ⟨hmention, htrim⟩

/-! ### Parentheses -/

/-- The tokens between `n` opening and `n` closing parentheses. -/
def enclosed (n : Nat) (tokens : List (List Char)) : List (List Char) :=
  List.replicate n ['('] ++ tokens ++ List.replicate n [')']

theorem enclosed_succ (n : Nat) (tokens : List (List Char)) :
    enclosed (n + 1) tokens = ['('] :: (enclosed n tokens ++ [[')']]) := by
  rw [enclosed, enclosed, List.replicate_succ, List.replicate_succ' (a := [')'])]
  simp only [List.cons_append, List.append_assoc]

private theorem spells_parens (h : Spells tokens text) :
    Spells (['('] :: (tokens ++ [[')']])) ('(' :: (text ++ [')'])) :=
  (spells_self ['(']).append (h.append (spells_self [')']))

/-- What is spelled in parentheses is a text between them, but for blanks around it all. -/
theorem exists_of_spells_parens (h : Spells (['('] :: (tokens ++ [[')']])) text) :
    ∃ inner, trim text = '(' :: (inner ++ [')']) ∧ inner.length + 2 ≤ text.length ∧ Spells tokens inner := by
  cases h with
  | cons hgap hrest =>
    obtain ⟨inner, behind, rfl, hinner, hbehind⟩ := spells_concat_iff.1 hrest
    have hfirst : ∀ c ∈ ('(' :: (inner ++ [')'])).head?, isBlank c = false := by
      intro c hc
      obtain rfl := Option.some.inj hc
      decide
    have hlast : ∀ c ∈ ('(' :: (inner ++ [')'])).getLast?, isBlank c = false := by
      intro c hc
      rw [← List.cons_append, List.getLast?_concat] at hc
      obtain rfl := Option.some.inj hc
      decide
    have htrim := trim_of_gaps hgap hbehind hfirst hlast
    refine ⟨inner, ?_, ?_, hinner⟩
    · rw [← htrim]
      simp
    · simp only [List.length_append, List.length_singleton]
      omega

/-- What is left without the parentheses has had some around it. -/
private theorem exists_spells_enclosed (text : List Char) :
    ∃ n, ∀ tokens, Spells tokens (stripParens text) → Spells (enclosed n tokens) text := by
  have hgo : ∀ steps text, ∃ n, ∀ tokens, Spells tokens (stripParens.go steps text) →
      Spells (enclosed n tokens) text := by
    intro steps
    induction steps with
    | zero => exact fun _ => ⟨0, fun tokens h => by simpa [enclosed, stripParens.go] using h⟩
    | succ steps ih =>
      intro text
      by_cases hparens : ∃ inner, text = '(' :: (inner ++ [')'])
      · obtain ⟨inner, rfl⟩ := hparens
        obtain ⟨n, hn⟩ := ih (trim inner)
        refine ⟨n + 1, fun tokens h => ?_⟩
        rw [enclosed_succ]
        refine spells_parens (hn tokens ?_).of_trim
        simpa [stripParens.go] using h
      · refine ⟨0, fun tokens h => ?_⟩
        have hkept : stripParens.go (steps + 1) text = text := by
          unfold stripParens.go
          split
          · rename_i rest
            refine if_neg fun hlast => hparens ⟨rest.dropLast, ?_⟩
            obtain ⟨inner, rfl⟩ := List.getLast?_eq_some_iff.1 hlast
            rw [List.dropLast_concat]
          · rfl
        rw [hkept] at h
        simpa [enclosed] using h
  obtain ⟨n, hn⟩ := hgo text.length (trim text)
  exact ⟨n, fun tokens h => (hn tokens h).of_trim⟩

/-- All parentheses are taken away from tokens that start with another character. -/
private theorem spells_stripParens {c : Char} {first : List Char} (hc : c ≠ '(')
    (htokens : ∀ token ∈ (c :: first) :: tokens, token ≠ [] ∧ NoBlank token) {n : Nat}
    (h : Spells (enclosed n ((c :: first) :: tokens)) text) : Spells ((c :: first) :: tokens) (stripParens text) := by
  have hgo : ∀ n steps text, text.length ≤ steps → Spells (enclosed n ((c :: first) :: tokens)) text →
      Spells ((c :: first) :: tokens) (stripParens.go steps (trim text)) := by
    intro n
    induction n with
    | zero =>
      intro steps text _ h
      have htrim : Spells ((c :: first) :: tokens) (trim text) :=
        Spells.of_words_eq (by simpa [enclosed] using h) htokens (words_trim text)
      have hkept : stripParens.go steps (trim text) = trim text := by
        cases steps with
        | zero => rfl
        | succ steps =>
          unfold stripParens.go
          split
          · rename_i rest heq
            -- A trimmed text starts with its first token, and so with no parenthesis.
            rw [heq] at htrim
            rcases htrim.head? with hblank | hsame
            · cases hblank
            · exact absurd hsame.symm hc
          · rfl
      rw [hkept]
      exact htrim
    | succ n ih =>
      intro steps text hsteps h
      rw [enclosed_succ] at h
      obtain ⟨inner, htrim, hlength, hinner⟩ := exists_of_spells_parens h
      obtain ⟨steps, rfl⟩ : ∃ k, steps = k + 1 := ⟨steps - 1, by omega⟩
      have hstep : stripParens.go (steps + 1) (trim text) = stripParens.go steps (trim inner) := by
        rw [htrim]
        simp [stripParens.go]
      rw [hstep]
      exact ih steps inner (by omega) hinner
  exact hgo n text.length text (Nat.le_refl _) h

/-! ### Sides -/

private theorem isOperator_of_isBlank {c : Char} (h : isBlank c = true) : isOperator c = false := by
  refine Bool.eq_false_iff.2 fun hoperator => ?_
  simp only [isOperator, Bool.or_eq_true, beq_iff_eq] at hoperator
  rcases hoperator with ((rfl | rfl) | rfl) | rfl <;> cases h

/-- The two sides of an equality are what is before and behind its first operator. -/
theorem exists_of_equality? {l r : Term} (h : equality? text = some (l, r)) :
    ∃ left right, stripParens text = left ++ '=' :: right ∧ Term.ofText left = l ∧ Term.ofText right = r := by
  unfold equality? at h
  dsimp only at h
  split at h
  · cases h
  · rename_i right _ hdrop
    obtain ⟨rfl, rfl⟩ := Prod.mk.inj (Option.some.inj h)
    exact ⟨(stripParens text).takeWhile (! isOperator ·), right, by rw [← hdrop, List.takeWhile_append_dropWhile],
      rfl, rfl⟩
  · cases h

private theorem equality?_of_stripParens {left right : List Char} (hsides : stripParens text = left ++ '=' :: right)
    (hleft : ∀ c ∈ left, isOperator c = false) (hright : ∀ c ∈ right.head?, c ≠ '=') :
    equality? text = some (.ofText left, .ofText right) := by
  have hall : ∀ c ∈ left, (! isOperator c) = true := fun c hc => by rw [hleft c hc]; rfl
  have htake : (stripParens text).takeWhile (! isOperator ·) = left := by
    rw [hsides, List.takeWhile_append_of_pos hall, List.takeWhile_cons_of_neg (by decide), List.append_nil]
  have hdrop : (stripParens text).dropWhile (! isOperator ·) = '=' :: right := by
    rw [hsides, List.dropWhile_append_of_pos hall, List.dropWhile_cons_of_neg (by decide)]
  unfold equality?
  dsimp only
  rw [hdrop, htake]
  cases right with
  | nil => rfl
  | cons c right =>
    have hne := hright c rfl
    split
    · rename_i heq
      exact absurd (List.cons.inj (List.cons.inj heq).2).1 hne
    · rename_i heq
      obtain rfl := (List.cons.inj heq).2
      rfl
    · rename_i hnot
      exact absurd rfl (hnot _)

theorem pair?_eq_some_iff : pair? related text = some p ↔
    equality? text = some (.this p.thisAttribute, .ofClass related p.relatedAttribute) ∨
      equality? text = some (.ofClass related p.relatedAttribute, .this p.thisAttribute) := by
  obtain ⟨x, y⟩ := p
  unfold pair?
  split
  · rename_i a name b heq
    by_cases hname : name = related
    · simp [heq, hname]
    · simp [heq, hname]
  · rename_i name b a heq
    by_cases hname : name = related
    · simp [heq, hname, and_comm]
    · simp [heq, hname]
  · rename_i hthis hclass
    refine ⟨fun h => (by cases h), ?_⟩
    rintro (h | h)
    · exact absurd h (hthis _ _ _)
    · exact absurd h (hclass _ _ _)

/-! ### Equalities -/

/-- The text is an equality of the two attributes of a pair, either side first, in parentheses that match. -/
structure Equates (related : String) (p : JoinPair) (text : List Char) : Prop where
  thisSide : IsMention "this" p.thisAttribute
  relatedSide : IsMention related p.relatedAttribute
  spelled : ∃ n,
    Spells (enclosed n [mention "this" p.thisAttribute, ['='], mention related p.relatedAttribute]) text ∨
      Spells (enclosed n [mention related p.relatedAttribute, ['='], mention "this" p.thisAttribute]) text

section Sides

variable {name' member' : String} (hl : IsMention name member) (hr : IsMention name' member')

include hl hr

/-- The tokens of an equality are neither empty nor broken by a blank. -/
private theorem noBlank_of_mem_equality :
    ∀ token ∈ [mention name member, ['='], mention name' member'], token ≠ [] ∧ NoBlank token := by
  have hsign : NoBlank ['='] := by decide
  intro token htoken
  simp only [List.mem_cons, List.not_mem_nil, or_false] at htoken
  rcases htoken with rfl | rfl | rfl
  · exact ⟨by simp [mention], hl.noBlank⟩
  · exact ⟨by simp, hsign⟩
  · exact ⟨by simp [mention], hr.noBlank⟩

/-- An equality is read for the terms that its sides mention, whatever encloses it. -/
private theorem equality?_of_spells {n : Nat}
    (h : Spells (enclosed n [mention name member, ['='], mention name' member']) text) :
    ∃ left right, trim left = mention name member ∧ trim right = mention name' member' ∧
      equality? text = some (.ofText left, .ofText right) := by
  have htokens := noBlank_of_mem_equality hl hr
  obtain ⟨c, first, hfirst, hc⟩ := hl.exists_eq_cons
  have hinner : Spells [mention name member, ['='], mention name' member'] (stripParens text) := by
    rw [hfirst] at h htokens ⊢
    exact spells_stripParens hc.ne_open htokens h
  have hside : ∀ {before side behind : List Char}, AllBlank before → (∀ c ∈ side, isOperator c = false) →
      AllBlank behind → ∀ c ∈ before ++ side ++ behind, isOperator c = false := by
    intro before side behind hbefore hside hbehind
    refine List.forall_mem_append.2 ⟨List.forall_mem_append.2 ⟨fun c hc => ?_, hside⟩, fun c hc => ?_⟩
    · exact isOperator_of_isBlank (hbefore c hc)
    · exact isOperator_of_isBlank (hbehind c hc)
  generalize hcore : stripParens text = core at hinner
  cases hinner with
  | @cons g₁ _ _ _ h₁ hrest =>
    cases hrest with
    | @cons g₂ _ _ _ h₂ hrest =>
      cases hrest with
      | @cons g₃ _ g₄ _ h₃ hrest =>
        cases hrest with
        | nil h₄ =>
          refine ⟨g₁ ++ mention name member ++ g₂, g₃ ++ mention name' member' ++ g₄,
            trim_of_noBlank h₁ hl.noBlank h₂, trim_of_noBlank h₃ hr.noBlank h₄, equality?_of_stripParens ?_
              (hside h₁ hl.isOperator_eq_false h₂) fun c hc => ?_⟩
          · rw [hcore]
            simp
          · rintro rfl
            have hnot := hside h₃ hr.isOperator_eq_false h₄ _ (List.mem_of_mem_head? hc)
            cases hnot

end Sides

/-- Two sides with an equals sign between them are spelled in the parentheses that were taken away. -/
private theorem spells_of_sides {left right l r : List Char} (hsides : stripParens text = left ++ '=' :: right)
    (hleft : trim left = l) (hright : trim right = r) : ∃ n, Spells (enclosed n [l, ['='], r]) text := by
  obtain ⟨n, hn⟩ := exists_spells_enclosed text
  refine ⟨n, hn _ ?_⟩
  have hl : Spells [l] left := Spells.of_trim (hleft ▸ spells_self _)
  have hr : Spells [r] right := Spells.of_trim (hright ▸ spells_self _)
  rw [hsides]
  exact hl.append ((spells_self ['=']).append hr)

theorem equates_of_pair? (h : pair? related text = some p) : Equates related p text := by
  rcases pair?_eq_some_iff.1 h with h | h
  · obtain ⟨left, right, hsides, hleft, hright⟩ := exists_of_equality? h
    obtain ⟨hthis, hleft⟩ := trim_of_ofText_this hleft
    obtain ⟨hrelated, hright⟩ := trim_of_ofText_ofClass hright
    obtain ⟨n, hn⟩ := spells_of_sides hsides hleft hright
    exact ⟨hthis, hrelated, n, .inl hn⟩
  · obtain ⟨left, right, hsides, hleft, hright⟩ := exists_of_equality? h
    obtain ⟨hrelated, hleft⟩ := trim_of_ofText_ofClass hleft
    obtain ⟨hthis, hright⟩ := trim_of_ofText_this hright
    obtain ⟨n, hn⟩ := spells_of_sides hsides hleft hright
    exact ⟨hthis, hrelated, n, .inr hn⟩

/-- A conjunct is a pair just if it is an equality of the two attributes. -/
theorem pair?_eq_some_iff_equates (hrelated : related ≠ "this") :
    pair? related text = some p ↔ Equates related p text := by
  refine ⟨equates_of_pair?, fun ⟨hthis, hother, n, hspelled⟩ => pair?_eq_some_iff.2 ?_⟩
  have hterms : ∀ {left right : List Char}, trim left = mention "this" p.thisAttribute →
      trim right = mention related p.relatedAttribute →
      Term.ofText left = .this p.thisAttribute ∧ Term.ofText right = .ofClass related p.relatedAttribute := by
    intro left right hleft hright
    rw [hthis.ofText_of_trim hleft, hother.ofText_of_trim hright, if_pos rfl, if_neg hrelated]
    exact ⟨rfl, rfl⟩
  rcases hspelled with h | h
  · obtain ⟨left, right, hleft, hright, hread⟩ := equality?_of_spells hthis hother h
    obtain ⟨hl, hr⟩ := hterms hleft hright
    rw [hl, hr] at hread
    exact .inl hread
  · obtain ⟨left, right, hleft, hright, hread⟩ := equality?_of_spells hother hthis h
    obtain ⟨hr, hl⟩ := hterms hright hleft
    rw [hl, hr] at hread
    exact .inr hread

/-! ### Queries of one conjunct -/

private theorem noBlank_of_mem_enclosed {n : Nat} (h : ∀ token ∈ tokens, token ≠ [] ∧ NoBlank token) :
    ∀ token ∈ enclosed n tokens, token ≠ [] ∧ NoBlank token := by
  have hparens : NoBlank ['('] ∧ NoBlank [')'] := by decide
  refine List.forall_mem_append.2 ⟨List.forall_mem_append.2 ⟨fun token htoken => ?_, h⟩, fun token htoken => ?_⟩
  · rw [(List.mem_replicate.1 htoken).2]
    exact ⟨by simp, hparens.1⟩
  · rw [(List.mem_replicate.1 htoken).2]
    exact ⟨by simp, hparens.2⟩

/-- Whether a text is an equality depends on its words alone. -/
theorem Equates.of_words_eq {text' : List Char} (h : Equates related p text) (hwords : words text' = words text) :
    Equates related p text' := by
  obtain ⟨hthis, hother, n, hspelled⟩ := h
  refine ⟨hthis, hother, n, hspelled.imp (fun h => h.of_words_eq ?_ hwords) fun h => h.of_words_eq ?_ hwords⟩
  · exact noBlank_of_mem_enclosed (noBlank_of_mem_equality hthis hother)
  · exact noBlank_of_mem_enclosed (noBlank_of_mem_equality hother hthis)

/-- The text of a conjunct with the words of the query is an equality just if the query is. -/
private theorem equates_conjunct_words (query : List Char) :
    Equates related p (conjunct (words query)) ↔ Equates related p query := by
  have hwords : words (conjunct (words query)) = words query := words_conjunct fun _ hw =>
    ⟨Text.ne_nil_of_mem_words hw, Text.not_isBlank_of_mem_words hw⟩
  exact ⟨fun h => h.of_words_eq hwords.symm, fun h => h.of_words_eq hwords⟩

private theorem ofList_conjunct (ws : List (List Char)) :
    String.ofList (conjunct ws) = " ".intercalate (ws.map String.ofList) := by
  rw [← String.toList_inj, String.toList_ofList, String.toList_intercalate, List.map_map]
  have hid : String.toList ∘ String.ofList = id := funext fun cs => String.toList_ofList
  rw [hid, List.map_id]
  rfl

private theorem parse_of_conjuncts_eq_singleton {query related : String} (h : conjuncts query.toList = [text]) :
    parse query related = ofConjunct related text := by
  rw [parse, h, List.map_singleton, List.foldl_cons, List.foldl_nil, empty_append]

/-- A query with a word, but none `and` outside of literals, has one conjunct.  It has the pair of two attributes and no
filter just if it is an equality of the two, and otherwise no pair and one filter, of all its words. -/
theorem parse_of_undivided {query related : String} (hwords : words query.toList ≠ [])
    (hand : ∀ before w after, words query.toList = before ++ w :: after → Even (before.flatten.count '\'') →
      isAnd w = false) (hrelated : related ≠ "this") :
    (∀ p, (parse query related).pairs = [p] ∧ (parse query related).filters = [] ↔
      Equates related p query.toList) ∧
    ((∀ p, ¬ Equates related p query.toList) → (parse query related).pairs = [] ∧
      (parse query related).filters = [" ".intercalate ((words query.toList).map String.ofList)]) := by
  have hone : conjuncts query.toList = [conjunct (words query.toList)] :=
    conjuncts_of_undivided hwords fun before w after heq hopen =>
      hand before w after heq (togglesQuote_eq_false_iff.1 hopen)
  have hpair : ∀ p, pair? related (conjunct (words query.toList)) = some p ↔ Equates related p query.toList :=
    fun p => (pair?_eq_some_iff_equates hrelated).trans (equates_conjunct_words query.toList)
  rw [parse_of_conjuncts_eq_singleton hone]
  refine ⟨fun p => ?_, fun hno => ?_⟩
  · rw [← hpair p]
    cases hread : pair? related (conjunct (words query.toList)) with
    | none => simp [ofConjunct, hread]
    | some q => simp [ofConjunct, hread]
  · have hread : pair? related (conjunct (words query.toList)) = none :=
      Option.eq_none_iff_forall_ne_some.2 fun p hsome => hno p ((hpair p).1 hsome)
    simp [ofConjunct, hread, ofList_conjunct]

/-- Blanks and parentheses around an equality do not matter. -/
theorem parse_of_undivided_of_parens :
    let query := "( (this.id\t=Item.orderId ) )"
    words query.toList ≠ [] ∧
      (∀ before w after, words query.toList = before ++ w :: after → Even (before.flatten.count '\'') →
        isAnd w = false) ∧
      "Item" ≠ "this" ∧ Equates "Item" ⟨"id", "orderId"⟩ query.toList ∧
      (parse query "Item").pairs = [⟨"id", "orderId"⟩] ∧ (parse query "Item").filters = [] := by
  intro query
  have hwords : words query.toList ≠ [] := by decide +kernel
  have hnone : ∀ w ∈ words query.toList, isAnd w = false := by decide +kernel
  have hand : ∀ before w after, words query.toList = before ++ w :: after → Even (before.flatten.count '\'') →
      isAnd w = false := by
    intro before w after heq _
    refine hnone w ?_
    rw [heq]
    exact List.mem_append_right before List.mem_cons_self
  have hempty : AllBlank [] := by decide
  have hblank : AllBlank [' '] ∧ AllBlank ['\t'] := by decide
  have hspelled := (spells_singleton hempty ['('] hblank.1).append <| (spells_self ['(']).append <|
    (spells_singleton hempty (mention "this" "id") hblank.2).append <| (spells_self ['=']).append <|
    (spells_singleton hempty (mention "Item" "orderId") hblank.1).append <|
    (spells_singleton hempty [')'] hblank.1).append (spells_self [')'])
  have hequates : Equates "Item" ⟨"id", "orderId"⟩ query.toList := by
    refine ⟨⟨by decide, by decide⟩, ⟨by decide, by decide⟩, 2, .inl ?_⟩
    convert hspelled using 1 <;> decide +kernel
  have hread := ((parse_of_undivided hwords hand (by decide)).1 ⟨"id", "orderId"⟩).2 hequates
  exact ⟨hwords, hand, by decide, hequates, hread.1, hread.2⟩

end Metamodel.Join
