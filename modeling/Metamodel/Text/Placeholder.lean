/-!
# Replacing a word in a text

`replaceAll` replaces the occurrences of a word, found from the left without overlap; `fill` does so for one placeholder
after the other, so that a placeholder brought in by an earlier value is replaced by a later one.
-/

namespace Metamodel.Text

/-- The rest of a text that starts with the word. -/
def dropWord? : List Char → List Char → Option (List Char)
  | [], cs => some cs
  | p :: ps, c :: cs => if p = c then dropWord? ps cs else none
  | _ :: _, [] => none

theorem length_dropWord? {ps cs rest : List Char} (h : dropWord? ps cs = some rest) :
    cs.length = ps.length + rest.length := by
  induction ps generalizing cs with
  | nil => simp_all [dropWord?]
  | cons p ps ih =>
    cases cs with
    | nil => simp [dropWord?] at h
    | cons c cs =>
      rw [dropWord?] at h
      split at h
      · simp [ih h]; omega
      · contradiction

/-- Every occurrence of the word `p :: ps` replaced, from the left and without overlap. -/
def replaceAll (p : Char) (ps image : List Char) : List Char → List Char
  | [] => []
  | c :: cs =>
    match _h : dropWord? (p :: ps) (c :: cs) with
    | some rest => image ++ replaceAll p ps image rest
    | none => c :: replaceAll p ps image cs
termination_by cs => cs.length
decreasing_by
  · have := length_dropWord? _h
    simp only [List.length_cons] at this ⊢
    omega
  · simp

/-- The template with each placeholder, a name in braces, replaced by its value, in the order of the list. -/
def fill (template : String) (values : List (String × String)) : String :=
  values.foldl
    (fun text (name, value) =>
      String.ofList (replaceAll '\x7b' (name.toList ++ ['\x7d']) value.toList text.toList))
    template

end Metamodel.Text
