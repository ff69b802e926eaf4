import Mathlib.Order.Lattice.Nat
import Metamodel.Proofs.Interface.Termination

/-!
# Levels of super interfaces

The list of super interfaces is made level by level, and where every interface stands under its qualified name the
`k`-th level holds those that `k` steps up lead to, but no fewer (`AtLevel`).  So the list goes from the nearest
interfaces to those further up (`pairwise_superInterfacesOf`).
-/

namespace Metamodel.Declarations

/-- A way of so many steps leads up from `i` to `j`. -/
def StepsUp (d : Declarations) : Nat → InterfaceDeclaration → InterfaceDeclaration → Prop
  | 0, i, j => i = j
  | n + 1, i, j => ∃ k, d.StepsUp n i k ∧ d.Extends k j

/-- The number of steps, one or more, on the shortest way up from `i` to `j`. -/
noncomputable def leastSteps (d : Declarations) (i j : InterfaceDeclaration) : Nat :=
  sInf {n | 0 < n ∧ d.StepsUp n i j}

variable {d : Declarations} {i j k : InterfaceDeclaration} {n steps : Nat} {seen frontier names : List String}

private theorem transGen_iff_stepsUp : Relation.TransGen d.Extends i j ↔ ∃ n, 0 < n ∧ d.StepsUp n i j := by
  constructor
  · intro h
    induction h with
    | single hij => exact ⟨1, Nat.one_pos, i, rfl, hij⟩
    | tail _ hkj ih =>
      obtain ⟨n, -, hn⟩ := ih
      exact ⟨n + 1, Nat.succ_pos n, _, hn, hkj⟩
  · rintro ⟨n, hpos, hn⟩
    induction n generalizing j with
    | zero => exact absurd hpos (Nat.lt_irrefl 0)
    | succ n ih =>
      obtain ⟨k, hk, hkj⟩ := hn
      cases n with
      | zero =>
        obtain rfl : i = k := hk
        exact .single hkj
      | succ n => exact .tail (ih (Nat.succ_pos n) hk) hkj

/-- What a way leads up to stands under its own qualified name. -/
private theorem InterfacesByName.find?_of_stepsUp (hd : d.InterfacesByName) (hpos : 0 < n) (h : d.StepsUp n i j) :
    d.interfaces.find? j.qualifiedName = some j := by
  obtain ⟨m, rfl⟩ := Nat.exists_eq_succ_of_ne_zero (Nat.ne_of_gt hpos)
  obtain ⟨k, -, hkj⟩ := h
  exact hd.find?_of_extends hkj

private theorem leastSteps_le (hpos : 0 < n) (hn : d.StepsUp n i j) : d.leastSteps i j ≤ n :=
  Nat.sInf_le ⟨hpos, hn⟩

/-- Where a way leads up, one takes the least number of steps. -/
private theorem stepsUp_leastSteps (h : Relation.TransGen d.Extends i j) :
    0 < d.leastSteps i j ∧ d.StepsUp (d.leastSteps i j) i j :=
  Nat.sInf_mem (transGen_iff_stepsUp.1 h)

/-! ### One level -/

/-- Nothing in a level has been seen before. -/
private theorem not_mem_of_mem_unseen (h : j ∈ d.unseen seen names) : j.qualifiedName ∉ seen := by
  induction names generalizing seen with
  | nil => cases h
  | cons s names ih =>
    rw [unseen] at h
    split at h
    · exact ih h
    · split at h
      · exact ih h
      · rename_i hnew
        rcases List.mem_cons.1 h with rfl | h
        · simpa using hnew
        · exact fun hmem => ih h (List.mem_cons_of_mem _ hmem)

/-- The names of the interfaces that at most `n` steps up from `i` lead to have been seen, and the frontier denotes what
one step more leads to. -/
structure AtLevel (d : Declarations) (i : InterfaceDeclaration) (n : Nat) (seen frontier : List String) : Prop where
  passed : ∀ name ∈ seen, ∃ j m, j.qualifiedName = name ∧ 0 < m ∧ m ≤ n ∧ d.StepsUp m i j
  reached : ∀ j m, 0 < m → m ≤ n → d.StepsUp m i j → j.qualifiedName ∈ seen
  above : ∀ s ∈ frontier, ∀ j, d.interfaceNamed? s = some j → d.StepsUp (n + 1) i j
  next : ∀ j, d.StepsUp (n + 1) i j → j.qualifiedName ∈ seen ∨ ∃ s ∈ frontier, d.interfaceNamed? s = some j

private theorem atLevel_zero (d : Declarations) (i : InterfaceDeclaration) : d.AtLevel i 0 [] i.superInterfaces where
  passed _ h := absurd h List.not_mem_nil
  reached _ m hpos hle := absurd hpos (by omega)
  above s hs _ hj := ⟨i, rfl, s, hs, hj⟩
  next j h := by
    obtain ⟨k, rfl, s, hs, hj⟩ := h
    exact .inr ⟨s, hs, hj⟩

namespace AtLevel

/-- So many steps and one more lead to what is in the level. -/
private theorem stepsUp_of_mem (ha : d.AtLevel i n seen frontier) (hj : j ∈ d.unseen seen frontier) :
    d.StepsUp (n + 1) i j := by
  obtain ⟨s, hs, hj⟩ := exists_of_mem_unseen hj
  exact ha.above s hs j hj

/-- Fewer steps do not lead to what has not been seen. -/
private theorem lt_leastSteps (ha : d.AtLevel i n seen frontier) (hj : Relation.TransGen d.Extends i j)
    (hnew : j.qualifiedName ∉ seen) : n < d.leastSteps i j := by
  obtain ⟨hpos, hsteps⟩ := stepsUp_leastSteps hj
  exact Nat.lt_of_not_le fun hle => hnew (ha.reached j _ hpos hle hsteps)

/-- What so many steps and one more lead to is in the level, if it has not been seen. -/
theorem mem_unseen (ha : d.AtLevel i n seen frontier) (hd : d.InterfacesByName) (hj : d.StepsUp (n + 1) i j)
    (hnew : j.qualifiedName ∉ seen) : j ∈ d.unseen seen frontier := by
  obtain ⟨s, hs, hdenotes⟩ := (ha.next j hj).resolve_left hnew
  exact hd.mem_unseen hdenotes ((mem_or_mem_unseen hs hdenotes).resolve_left hnew)

/-- On to the next level. -/
theorem succ (ha : d.AtLevel i n seen frontier) (hd : d.InterfacesByName) :
    d.AtLevel i (n + 1) ((d.unseen seen frontier).map (·.qualifiedName) ++ seen)
      ((d.unseen seen frontier).flatMap (·.superInterfaces)) := by
  have hreached : ∀ j m, 0 < m → m ≤ n + 1 → d.StepsUp m i j →
      j.qualifiedName ∈ (d.unseen seen frontier).map (·.qualifiedName) ++ seen := by
    intro j m hpos hle hj
    by_cases hseen : j.qualifiedName ∈ seen
    · exact List.mem_append_right _ hseen
    · have hlast : m = n + 1 := by
        exact Nat.le_antisymm hle (Nat.lt_of_not_le fun hold => hseen (ha.reached j m hpos hold hj))
      exact List.mem_append_left _ (List.mem_map_of_mem (ha.mem_unseen hd (hlast ▸ hj) hseen))
  refine ⟨fun name hname => ?_, hreached, fun s hs j hj => ?_, fun j hj => ?_⟩
  · rcases List.mem_append.1 hname with hlevel | hold
    · obtain ⟨j, hj, rfl⟩ := List.mem_map.1 hlevel
      exact ⟨j, n + 1, rfl, Nat.succ_pos n, Nat.le_refl _, ha.stepsUp_of_mem hj⟩
    · obtain ⟨j, m, hj, hpos, hle, hm⟩ := ha.passed name hold
      exact ⟨j, m, hj, hpos, Nat.le_succ_of_le hle, hm⟩
  · obtain ⟨k, hk, hs⟩ := List.mem_flatMap.1 hs
    exact ⟨k, ha.stepsUp_of_mem hk, s, hs, hj⟩
  · obtain ⟨k, hk, s, hs, hj⟩ := hj
    by_cases hseen : k.qualifiedName ∈ seen
    · -- Fewer steps lead to the interface below, and so to this one.
      obtain ⟨k', m, hname, hpos, hle, hm⟩ := ha.passed _ hseen
      have hfind := hd.find?_of_stepsUp hpos hm
      rw [hname, hd.find?_of_stepsUp (Nat.succ_pos n) hk] at hfind
      obtain rfl := Option.some.inj hfind
      exact .inl (hreached j (m + 1) (Nat.succ_pos m) (Nat.succ_le_succ hle) ⟨k, hm, s, hs, hj⟩)
    · exact .inr ⟨s, List.mem_flatMap.2 ⟨k, ha.mem_unseen hd hk hseen, hs⟩, hj⟩

end AtLevel

/-! ### All levels -/

/-- From any level on the list goes from the nearest interfaces to those further up. -/
private theorem pairwise_levelsAbove (hd : d.InterfacesByName) (ha : d.AtLevel i n seen frontier) :
    (d.levelsAbove steps seen frontier).Pairwise (fun j k => d.leastSteps i j ≤ d.leastSteps i k) ∧
      ∀ j ∈ d.levelsAbove steps seen frontier, n < d.leastSteps i j := by
  induction steps generalizing n seen frontier with
  | zero => exact ⟨.nil, fun _ hj => absurd hj List.not_mem_nil⟩
  | succ steps ih =>
    rw [levelsAbove]
    split
    · exact ⟨.nil, fun _ hj => absurd hj List.not_mem_nil⟩
    · obtain ⟨hrest, hfurther⟩ := ih (ha.succ hd)
      have hlevel : ∀ j ∈ d.unseen seen frontier, d.leastSteps i j = n + 1 := by
        intro j hj
        have hsteps := ha.stepsUp_of_mem hj
        refine Nat.le_antisymm (leastSteps_le (Nat.succ_pos n) hsteps) ?_
        exact ha.lt_leastSteps (transGen_iff_stepsUp.2 ⟨n + 1, Nat.succ_pos n, hsteps⟩) (not_mem_of_mem_unseen hj)
      refine ⟨List.pairwise_append.2 ⟨?_, hrest, fun j hj k hk => ?_⟩, fun j hj => ?_⟩
      · refine List.pairwise_iff_forall_sublist.2 fun {j k} hsub => ?_
        have hmem := hsub.subset
        rw [hlevel j (hmem (by simp)), hlevel k (hmem (by simp))]
      · rw [hlevel j hj]
        exact Nat.le_of_lt (hfurther k hk)
      · rcases List.mem_append.1 hj with hj | hj
        · rw [hlevel j hj]
          exact Nat.lt_succ_self n
        · exact Nat.lt_trans (Nat.lt_succ_self n) (hfurther j hj)

/-- The list of super interfaces goes from the nearest ones to those further up. -/
theorem pairwise_superInterfacesOf (hd : d.InterfacesByName) (i : InterfaceDeclaration) :
    (d.superInterfacesOf i).Pairwise (fun j k => d.leastSteps i j ≤ d.leastSteps i k) :=
  (pairwise_levelsAbove hd (d.atLevel_zero i)).1

end Metamodel.Declarations
