import Mathlib.Data.List.Infix
import Metamodel.Text.Placeholder

/-!
# Placeholders filled one after another

Replacing a word goes part by part through a text, as long as no occurrence of the word can reach from one part into
the next (`replaceAll_append_cons`).  So does filling in values: text without a brace stays, a placeholder becomes its
value, and the value is filled in further with the values that come later (`fillIn_placeholder`).  A value in which no
later placeholder occurs stays as it is (`fill_of_lacks`).
-/

namespace Metamodel.Text

variable {p c : Char} {ps image a b cs rest : List Char} {name value : String} {values : List (String × String)}

/-! ### Replacing one word -/

private theorem dropWord?_eq_some_iff : dropWord? ps cs = some rest ↔ cs = ps ++ rest := by
  induction ps generalizing cs with
  | nil => simp [dropWord?]
  | cons p ps ih =>
    cases cs with
    | nil => simp [dropWord?]
    | cons c cs =>
      rw [dropWord?]
      split
      · rename_i hsame
        simp [ih, hsame]
      · rename_i hne
        simp [Ne.symm hne]

private theorem replaceAll_word_append (p : Char) (ps image rest : List Char) :
    replaceAll p ps image (p :: ps ++ rest) = image ++ replaceAll p ps image rest := by
  rw [List.cons_append, replaceAll]
  split
  · rename_i found hfound
    rw [dropWord?_eq_some_iff, List.cons_append, List.cons.injEq, List.append_cancel_left_eq] at hfound
    rw [hfound.2]
  · rename_i hnone
    rw [dropWord?_eq_some_iff.2 (List.cons_append ..).symm] at hnone
    cases hnone

private theorem replaceAll_cons_of_not_starts (h : ¬ p :: ps <+: c :: cs) :
    replaceAll p ps image (c :: cs) = c :: replaceAll p ps image cs := by
  rw [replaceAll]
  split
  · rename_i found hfound
    exact absurd ⟨found, (dropWord?_eq_some_iff.1 hfound).symm⟩ h
  · rfl

private theorem replaceAll_cons_of_ne (h : c ≠ p) : replaceAll p ps image (c :: cs) = c :: replaceAll p ps image cs :=
  replaceAll_cons_of_not_starts fun hstarts => h (List.cons_prefix_cons.1 hstarts).1.symm

private theorem replaceAll_of_not_occurs (h : ¬ p :: ps <:+: cs) : replaceAll p ps image cs = cs := by
  induction cs with
  | nil => rw [replaceAll]
  | cons c cs ih =>
    rw [replaceAll_cons_of_not_starts fun hstarts => h hstarts.isInfix,
      ih fun hoccurs => h (hoccurs.trans (List.suffix_cons c cs).isInfix)]

private theorem replaceAll_append_of_not_mem (h : p ∉ a) (b : List Char) :
    replaceAll p ps image (a ++ b) = a ++ replaceAll p ps image b := by
  induction a with
  | nil => rfl
  | cons c a ih =>
    have hne : c ≠ p := fun heq => h (heq ▸ List.mem_cons_self)
    rw [List.cons_append, replaceAll_cons_of_ne hne, ih fun hmem => h (List.mem_cons_of_mem c hmem), List.cons_append]

/-- What does not have the character ends before it. -/
private theorem prefix_of_prefix_append_cons (hc : c ∉ ps) (h : ps <+: a ++ c :: b) : ps <+: a := by
  induction ps generalizing a with
  | nil => exact List.nil_prefix
  | cons q ps ih =>
    cases a with
    | nil => exact absurd (List.cons_prefix_cons.1 h).1.symm fun heq => hc (heq ▸ List.mem_cons_self)
    | cons d a =>
      obtain ⟨rfl, hrest⟩ := List.cons_prefix_cons.1 h
      exact List.cons_prefix_cons.2 ⟨rfl, ih (fun hmem => hc (List.mem_cons_of_mem q hmem)) hrest⟩

/-- No occurrence of the word reaches over a character that is not inside the word. -/
theorem replaceAll_append_cons (hc : c ∉ ps) (a b : List Char) :
    replaceAll p ps image (a ++ c :: b) = replaceAll p ps image a ++ replaceAll p ps image (c :: b) := by
  fun_induction replaceAll p ps image a with
  | case1 => rfl
  | case2 d a rest hfound ih =>
    rw [dropWord?_eq_some_iff.1 hfound, List.append_assoc, replaceAll_word_append, ih, List.append_assoc]
  | case3 d a hnone ih =>
    have hnot : ¬ p :: ps <+: d :: (a ++ c :: b) := by
      intro hstarts
      obtain ⟨hsame, hrest⟩ := List.cons_prefix_cons.1 hstarts
      obtain ⟨rest, hfits⟩ := prefix_of_prefix_append_cons hc hrest
      have hfound : dropWord? (p :: ps) (d :: a) = some rest :=
        dropWord?_eq_some_iff.2 (by rw [hsame, ← hfits, List.cons_append])
      rw [hfound] at hnone
      cases hnone
    rw [List.cons_append, replaceAll_cons_of_not_starts hnot, ih, List.cons_append]

/-! ### Filling in values -/

/-- The placeholder of a name. -/
def word (name : String) : List Char :=
  '\x7b' :: (name.toList ++ ['\x7d'])

/-- None of the placeholders occurs in the text. -/
def Lacks (names : List String) (text : String) : Prop :=
  ∀ name ∈ names, ¬ word name <:+: text.toList

instance (names : List String) (text : String) : Decidable (Lacks names text) :=
  List.decidableBAll ..

/-- A text with a value filled in for each occurrence of its placeholder. -/
def fillOne (value : String × String) (cs : List Char) : List Char :=
  replaceAll '\x7b' (value.1.toList ++ ['\x7d']) value.2.toList cs

/-- A text with values filled in, one after another. -/
def fillIn (values : List (String × String)) (cs : List Char) : List Char :=
  values.foldl (fun cs value => fillOne value cs) cs

theorem toList_fill (template : String) (values : List (String × String)) :
    (fill template values).toList = fillIn values template.toList := by
  induction values generalizing template with
  | nil => rfl
  | cons v values ih =>
    have hfirst : (String.ofList (fillOne v template.toList)).toList = fillOne v template.toList := String.toList_ofList
    exact (ih _).trans (congrArg (fillIn values) hfirst)

private theorem fillOne_word_append {v : String × String} (h : ¬ word v.1 <:+: rest) :
    fillOne v (word v.1 ++ rest) = v.2.toList ++ rest := by
  have hreplaced := replaceAll_word_append '\x7b' (v.1.toList ++ ['\x7d']) v.2.toList rest
  rwa [replaceAll_of_not_occurs h] at hreplaced

private theorem fillIn_of_not_occurs (h : ∀ v ∈ values, ¬ word v.1 <:+: cs) : fillIn values cs = cs := by
  induction values with
  | nil => rfl
  | cons v values ih =>
    obtain ⟨hfirst, hlater⟩ := List.forall_mem_cons.1 h
    rw [fillIn, List.foldl_cons, show fillOne v cs = cs from replaceAll_of_not_occurs hfirst]
    exact ih hlater

/-- A text in which no placeholder occurs stays as it is. -/
theorem fill_of_lacks {text : String} (h : Lacks (values.map (·.1)) text) : fill text values = text := by
  refine String.toList_inj.1 ((toList_fill text values).trans (fillIn_of_not_occurs fun v hv => ?_))
  exact h v.1 (List.mem_map_of_mem hv)

/-- A text without a brace stays in front. -/
private theorem fillIn_append_of_not_mem (h : '\x7b' ∉ a) (values : List (String × String)) (b : List Char) :
    fillIn values (a ++ b) = a ++ fillIn values b := by
  induction values generalizing b with
  | nil => rfl
  | cons v values ih => exact (congrArg (fillIn values) (replaceAll_append_of_not_mem h b)).trans (ih _)

theorem fillIn_of_not_mem (h : '\x7b' ∉ a) (values : List (String × String)) : fillIn values a = a :=
  fillIn_of_not_occurs fun _ _ hoccurs => h (hoccurs.subset List.mem_cons_self)

/-- A character that is in no placeholder parts a text. -/
private theorem fillIn_append_cons {names : List String} (hnames : values.map (·.1) = names)
    (hc : ∀ name ∈ names, c ∉ word name) (a b : List Char) :
    fillIn values (a ++ c :: b) = fillIn values a ++ c :: fillIn values b := by
  subst hnames
  induction values generalizing a b with
  | nil => rfl
  | cons v values ih =>
    obtain ⟨hfirst, hlater⟩ := List.forall_mem_cons.1 hc
    have hne : c ≠ '\x7b' := fun heq => hfirst (heq ▸ List.mem_cons_self)
    have hinside : c ∉ v.1.toList ++ ['\x7d'] := fun hmem => hfirst (List.mem_cons_of_mem _ hmem)
    have hstep : fillOne v (a ++ c :: b) = fillOne v a ++ c :: fillOne v b := by
      rw [fillOne, replaceAll_append_cons hinside, replaceAll_cons_of_ne hne]
      rfl
    exact (congrArg (fillIn values) hstep).trans (ih _ _ hlater)

/-- A placeholder that does not come again becomes its value, in which those of later values are filled in. -/
theorem fillIn_placeholder (h : ¬ word name <:+: rest) (value : String) (later : List (String × String)) :
    fillIn ((name, value) :: later) (word name ++ rest) = fillIn later (value.toList ++ rest) :=
  congrArg (fillIn later) (fillOne_word_append (v := (name, value)) h)

/-! ### Templates -/

/-- A placeholder in a template, and the text from there to the next one. -/
structure Hole where
  name : String
  after : String

/-- The template from its first placeholder on. -/
def Hole.text : List Hole → List Char
  | [] => []
  | q :: later => word q.name ++ (q.after.toList ++ Hole.text later)

/-- The text between placeholders has no brace, and no placeholder comes twice. -/
def Hole.Distinct : List Hole → Prop
  | [] => True
  | q :: later => '\x7b' ∉ q.after.toList ∧ ¬ word q.name <:+: q.after.toList ++ Hole.text later ∧ Hole.Distinct later

instance Hole.decidableDistinct : (holes : List Hole) → Decidable (Hole.Distinct holes)
  | [] => .isTrue trivial
  | q :: later =>
    have := Hole.decidableDistinct later
    inferInstanceAs (Decidable ('\x7b' ∉ q.after.toList ∧ ¬ word q.name <:+: q.after.toList ++ Hole.text later ∧
      Hole.Distinct later))

/-- A value is the last one, or has no brace, or what follows it begins with a character that is in no later
placeholder. -/
def Hole.Parted : List Hole → List String → Prop
  | q :: later, v :: vs =>
    (later = [] ∨ '\x7b' ∉ v.toList ∨
        ∃ c rest, q.after.toList = c :: rest ∧ ∀ name ∈ later.map (·.name), c ∉ word name) ∧
      Hole.Parted later vs
  | _, _ => True

/-- The template with all values filled in at once, each with the later ones in it. -/
def Hole.filled : List Hole → List String → List Char
  | q :: later, v :: vs =>
    fillIn ((later.map (·.name)).zip vs) v.toList ++ (q.after.toList ++ Hole.filled later vs)
  | _, _ => []

/-- Filling in one value after another, in the order of the placeholders, fills in all at once, but that placeholders in
a value are filled in as well if they come later. -/
private theorem fillIn_text {holes : List Hole} {vs : List String} (hlength : vs.length = holes.length)
    (hdistinct : Hole.Distinct holes) (hparted : Hole.Parted holes vs) :
    fillIn ((holes.map (·.name)).zip vs) (Hole.text holes) = Hole.filled holes vs := by
  induction holes generalizing vs with
  | nil => rfl
  | cons q later ih =>
    cases vs with
    | nil => cases hlength
    | cons v vs =>
      obtain ⟨hafter, hfresh, hdistinct⟩ := hdistinct
      obtain ⟨hvalue, hparted⟩ := hparted
      have hlength := Nat.succ.inj hlength
      have hbehind : ∀ values, fillIn values (q.after.toList ++ Hole.text later) =
          q.after.toList ++ fillIn values (Hole.text later) := fun values => fillIn_append_of_not_mem hafter values _
      have hsplit : fillIn ((later.map (·.name)).zip vs) (v.toList ++ (q.after.toList ++ Hole.text later)) =
          fillIn ((later.map (·.name)).zip vs) v.toList ++
            fillIn ((later.map (·.name)).zip vs) (q.after.toList ++ Hole.text later) := by
        rcases hvalue with rfl | hplain | ⟨c, rest, hcons, hc⟩
        · rfl
        · rw [fillIn_append_of_not_mem hplain, fillIn_of_not_mem hplain]
        · have hnames : ((later.map (·.name)).zip vs).map (·.1) = later.map (·.name) :=
            List.map_fst_zip (by simp [hlength])
          have hfirst : '\x7b' ∉ [c] := fun hmem => hafter (by rw [hcons]; simp_all)
          rw [hcons, List.cons_append, fillIn_append_cons hnames hc]
          exact congrArg _ (fillIn_append_of_not_mem hfirst _ _).symm
      calc fillIn ((q.name, v) :: (later.map (·.name)).zip vs) (word q.name ++ (q.after.toList ++ Hole.text later))
        _ = fillIn ((later.map (·.name)).zip vs) (v.toList ++ (q.after.toList ++ Hole.text later)) :=
          fillIn_placeholder hfresh v _
        _ = fillIn ((later.map (·.name)).zip vs) v.toList ++
              (q.after.toList ++ fillIn ((later.map (·.name)).zip vs) (Hole.text later)) := by rw [hsplit, hbehind]
        _ = Hole.filled (q :: later) (v :: vs) := by rw [ih hlength hdistinct hparted, Hole.filled]

/-- The same for a template that begins with a text. -/
theorem toList_fill_template (template : String) (front : List Char) {holes : List Hole} {vs : List String}
    (htemplate : template.toList = front ++ Hole.text holes) (hfront : '\x7b' ∉ front)
    (hlength : vs.length = holes.length) (hdistinct : Hole.Distinct holes) (hparted : Hole.Parted holes vs) :
    (fill template ((holes.map (·.name)).zip vs)).toList = front ++ Hole.filled holes vs := by
  rw [toList_fill, htemplate, fillIn_append_of_not_mem hfront, fillIn_text hlength hdistinct hparted]

end Metamodel.Text
