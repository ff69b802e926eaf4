import Mathlib.Logic.Function.Iterate
import Metamodel.Proofs.Interface.Lineage

/-!
# The ways through interfaces end

The search for cycles goes down into an interface only if its key is not on the path, and the list of super interfaces
takes in a qualified name only once.  So neither needs more steps than there are interfaces, and one more, under
whatever keys these stand and whatever super interfaces they name: what would be done beyond that does not matter
(`cyclicInterfaces_of_bottom`, `superInterfacesOf_of_bottom`).
-/

namespace Metamodel.Declarations

variable {d : Declarations} {steps : Nat} {seen frontier : List String}

/-! ### The search for cycles -/

/-- What `searchCycles` does with the interface under one key, if `below` is done with its super interfaces. -/
def searchBy (d : Declarations) (below : List String → CycleSearch → String → CycleSearch) (path : List String)
    (s : CycleSearch) (name : String) : CycleSearch :=
  if path.contains name || s.finished.contains name then s
  else match d.interfaces.find? name with
    | none => s
    | some i =>
      let s := i.superInterfaces.foldl (fun s super =>
        match d.interfaceNamed? super with
        | none => s.report (undefinedSuper name super)
        | some parent =>
          let parent := parent.qualifiedName
          if (name :: path).contains parent then (s.report (circular name parent)).mark [name, parent]
          else (below (name :: path) s parent).inherit name parent) s
      { s with finished := name :: s.finished }

private theorem searchCycles_succ (d : Declarations) (steps : Nat) :
    d.searchCycles (steps + 1) = d.searchBy (d.searchCycles steps) := rfl

/-- Only an interface whose key is not on the path is gone down into. -/
private theorem searchBy_congr {below other : List String → CycleSearch → String → CycleSearch} {path : List String}
    {name : String} (h : name ∈ d.interfaces.keys → name ∉ path → below (name :: path) = other (name :: path))
    (s : CycleSearch) : d.searchBy below path s name = d.searchBy other path s name := by
  unfold searchBy
  split
  · rfl
  · rename_i hvisited
    split
    · rfl
    · rename_i i hfind
      have hkey : name ∈ d.interfaces.keys := List.mem_map_of_mem (d.interfaces.find?_eq_some_iff.1 hfind)
      have hnew : name ∉ path := fun hmem => hvisited (by simp [hmem])
      rw [h hkey hnew]

/-- Whatever is done at the bottom, the search from an interface ends before. -/
private theorem iterate_searchBy (bottom : List String → CycleSearch → String → CycleSearch) {n m : Nat}
    {path : List String} (hn : Suffices d.interfaces.keys n path) (hm : Suffices d.interfaces.keys m path) :
    d.searchBy^[n] bottom path = d.searchCycles m path := by
  induction n generalizing m path with
  | zero => exact absurd hn not_suffices_zero
  | succ n ih =>
    obtain ⟨m, rfl⟩ := hm.exists_succ
    rw [Function.iterate_succ_apply', searchCycles_succ]
    funext s name
    exact searchBy_congr (fun hkey hnew => ih (hn.cons hkey hnew) (hm.cons hkey hnew)) s

/-- The search for cycles needs no more steps than there are interfaces, and one more. -/
theorem cyclicInterfaces_of_bottom (d : Declarations) (bottom : List String → CycleSearch → String → CycleSearch)
    (extra : Nat) :
    d.interfaces.keys.foldl (d.searchBy^[d.interfaces.size + 1 + extra] bottom []) {} = d.cyclicInterfaces := by
  rw [cyclicInterfaces, iterate_searchBy bottom (d.suffices_keys extra) (d.suffices_keys 0)]

/-! ### Super interfaces -/

/-- What `levelsAbove` does with one level, if `above` is done with the next. -/
def levelBy (d : Declarations) (above : List String → List String → List InterfaceDeclaration)
    (seen frontier : List String) : List InterfaceDeclaration :=
  match d.unseen seen frontier with
  | [] => []
  | level => level ++ above (level.map (·.qualifiedName) ++ seen) (level.flatMap (·.superInterfaces))

private theorem levelsAbove_succ (d : Declarations) (steps : Nat) :
    d.levelsAbove (steps + 1) = d.levelBy (d.levelsAbove steps) := rfl

/-- The qualified names of the interfaces, whatever keys these stand under. -/
def interfaceNames (d : Declarations) : List String :=
  d.interfaces.values.map (·.qualifiedName)

private theorem suffices_interfaceNames (d : Declarations) (extra : Nat) :
    Suffices d.interfaceNames (d.interfaces.size + 1 + extra) [] := by
  have hsize : d.interfaceNames.length = d.interfaces.size := by
    simp [interfaceNames, NameMap.values, NameMap.size]
  rw [← hsize]
  exact suffices_nil d.interfaceNames extra

/-- A level that is not empty leaves enough steps for the next. -/
private theorem suffices_level (h : Suffices d.interfaceNames (steps + 1) seen) (hne : d.unseen seen frontier ≠ []) :
    Suffices d.interfaceNames steps ((d.unseen seen frontier).map (·.qualifiedName) ++ seen) := by
  refine h.append (by simpa using hne) (fun n hn => ?_) (nodup_unseen h.nodup)
  obtain ⟨i, hi, rfl⟩ := List.mem_map.1 hn
  obtain ⟨s, -, hs⟩ := exists_of_mem_unseen hi
  exact List.mem_map_of_mem (mem_values_of_interfaceNamed? hs)

/-- Whatever is done at the bottom, there are no more levels. -/
private theorem iterate_levelBy (bottom : List String → List String → List InterfaceDeclaration) {n m : Nat}
    (hn : Suffices d.interfaceNames n seen) (hm : Suffices d.interfaceNames m seen) (frontier : List String) :
    d.levelBy^[n] bottom seen frontier = d.levelsAbove m seen frontier := by
  induction n generalizing m seen frontier with
  | zero => exact absurd hn not_suffices_zero
  | succ n ih =>
    obtain ⟨m, rfl⟩ := hm.exists_succ
    rw [Function.iterate_succ_apply', levelsAbove_succ, levelBy, levelBy]
    split
    · rfl
    · rename_i hne
      rw [ih (suffices_level hn fun heq => hne heq) (suffices_level hm fun heq => hne heq)]

/-- The list of super interfaces needs no more levels than there are interfaces, and one more. -/
theorem superInterfacesOf_of_bottom (d : Declarations)
    (bottom : List String → List String → List InterfaceDeclaration) (extra : Nat) (i : InterfaceDeclaration) :
    d.levelBy^[d.interfaces.size + 1 + extra] bottom [] i.superInterfaces = d.superInterfacesOf i :=
  iterate_levelBy bottom (d.suffices_interfaceNames extra) (d.suffices_interfaceNames 0) i.superInterfaces

private theorem nodup_levelsAbove (d : Declarations) (steps : Nat) (hseen : seen.Nodup) (frontier : List String) :
    ((d.levelsAbove steps seen frontier).map (·.qualifiedName) ++ seen).Nodup := by
  induction steps generalizing seen frontier with
  | zero => exact hseen
  | succ steps ih =>
    rw [levelsAbove_succ, levelBy]
    split
    · exact hseen
    · have hlevel : ((d.unseen seen frontier).map (·.qualifiedName) ++ seen).Nodup := nodup_unseen hseen
      have hlater := ih hlevel ((d.unseen seen frontier).flatMap (·.superInterfaces))
      -- The later levels have the names of this one among those that are seen, and the list has it in front.
      rw [List.map_append, List.append_assoc]
      rw [← List.append_assoc] at hlater ⊢
      exact (List.perm_append_comm.append_right seen).nodup_iff.1 hlater

/-- No qualified name is listed twice. -/
theorem nodup_superInterfacesOf (d : Declarations) (i : InterfaceDeclaration) :
    ((d.superInterfacesOf i).map (·.qualifiedName)).Nodup := by
  have hnodup := d.nodup_levelsAbove (d.interfaces.size + 1) List.nodup_nil i.superInterfaces
  rwa [List.append_nil] at hnodup

end Metamodel.Declarations
