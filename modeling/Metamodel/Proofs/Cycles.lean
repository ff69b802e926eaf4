import Mathlib.Data.List.Cycle
import Mathlib.Logic.Relation

/-!
# Cycles of a relation

A way that comes to an element which it has passed already has closed a cycle (`exists_cycle_of_mem`).  On a cycle each
element reaches itself; and if the relation is a function, no two cycles meet (`eq_of_mem_of_mem`).  From an element
where every way ends no cycle can be reached (`not_reachesCycle_of_acc`).
-/

namespace Metamodel

variable {α : Type} {r : α → α → Prop} {a : α} {c c' : Cycle α}

/-- A cycle may be read from any element on it. -/
theorem exists_eq_coe_cons (ha : a ∈ c) : ∃ rest : List α, c = ((a :: rest : List α) : Cycle α) := by
  induction c using Quotient.inductionOn' with
  | _ l =>
    obtain ⟨before, rest, rfl⟩ := List.append_of_mem (Cycle.mem_coe_iff.1 ha)
    exact ⟨rest ++ before, Cycle.coe_eq_coe.2 List.isRotated_append⟩

/-- The way from an element of a cycle round to itself. -/
theorem isChain_of_chain {rest : List α} (hc : Cycle.Chain r ((a :: rest : List α) : Cycle α)) :
    (a :: rest ++ [a]).IsChain r :=
  (Cycle.chain_coe_cons r a rest).1 hc

/-- What follows the first element of a way is reached from it. -/
theorem reaches_of_isChain {l : List α} (hl : (a :: l).IsChain r) : ∀ b ∈ l, Relation.TransGen r a b := by
  induction l generalizing a with
  | nil => exact fun _ h => absurd h List.not_mem_nil
  | cons b l ih =>
    obtain ⟨hab, hl⟩ := List.isChain_cons_cons.1 hl
    intro x hx
    rcases List.mem_cons.1 hx with rfl | hx
    · exact .single hab
    · exact .head hab (ih hl x hx)

/-- A way goes on by one more step. -/
theorem isChain_concat_concat {b : α} {path : List α} (hway : (path ++ [a]).IsChain r) (hab : r a b) :
    (path ++ [a] ++ [b]).IsChain r := by
  refine List.isChain_append.2 ⟨hway, .singleton b, fun x hx y hy => ?_⟩
  rw [List.getLast?_concat] at hx
  obtain rfl := Option.some.inj hx
  obtain rfl := Option.some.inj hy
  exact hab

/-- An element of a cycle reaches itself. -/
theorem transGen_self_of_chain (hc : c.Chain r) (ha : a ∈ c) : Relation.TransGen r a a := by
  obtain ⟨rest, rfl⟩ := exists_eq_coe_cons ha
  exact reaches_of_isChain (isChain_of_chain hc) a (by simp)

/-- From an element of a cycle a step leads to another. -/
theorem exists_next_of_chain (hc : c.Chain r) (ha : a ∈ c) : ∃ b ∈ c, r a b := by
  obtain ⟨rest, rfl⟩ := exists_eq_coe_cons ha
  have hway := isChain_of_chain hc
  cases rest with
  | nil => exact ⟨a, ha, (List.isChain_cons_cons.1 hway).1⟩
  | cons b rest => exact ⟨b, by simp, (List.isChain_cons_cons.1 hway).1⟩

/-- The way of a function from `a` to the first `b` is unique. -/
private theorem way_unique {b : α} {l l' : List α} (hfun : ∀ x y z, r x y → r x z → y = z)
    (hl : (a :: l ++ [b]).IsChain r) (hb : b ∉ l) (hl' : (a :: l' ++ [b]).IsChain r) (hb' : b ∉ l') : l = l' := by
  induction l generalizing a l' with
  | nil =>
    cases l' with
    | nil => rfl
    | cons y l' =>
      have hsame := hfun _ _ _ (List.isChain_cons_cons.1 hl).1 (List.isChain_cons_cons.1 hl').1
      exact absurd (hsame ▸ List.mem_cons_self) hb'
  | cons x l ih =>
    cases l' with
    | nil =>
      have hsame := hfun _ _ _ (List.isChain_cons_cons.1 hl').1 (List.isChain_cons_cons.1 hl).1
      exact absurd (hsame ▸ List.mem_cons_self) hb
    | cons y l' =>
      obtain ⟨hx, hrest⟩ := List.isChain_cons_cons.1 hl
      obtain ⟨hy, hrest'⟩ := List.isChain_cons_cons.1 hl'
      obtain rfl := hfun _ _ _ hx hy
      rw [ih hrest (fun h => hb (List.mem_cons_of_mem _ h)) hrest' fun h => hb' (List.mem_cons_of_mem _ h)]

/-- Cycles of a function that meet are the same. -/
theorem eq_of_mem_of_mem (hfun : ∀ x y z, r x y → r x z → y = z) (hc : c.Chain r) (hnodup : c.Nodup) (ha : a ∈ c)
    (hc' : c'.Chain r) (hnodup' : c'.Nodup) (ha' : a ∈ c') : c = c' := by
  obtain ⟨rest, rfl⟩ := exists_eq_coe_cons ha
  obtain ⟨rest', rfl⟩ := exists_eq_coe_cons ha'
  have hnew := (List.nodup_cons.1 (Cycle.nodup_coe_iff.1 hnodup)).1
  have hnew' := (List.nodup_cons.1 (Cycle.nodup_coe_iff.1 hnodup')).1
  rw [way_unique hfun (isChain_of_chain hc) hnew (isChain_of_chain hc') hnew']

/-- A way that comes to an element of it has closed a cycle, which begins where the element is on the way. -/
theorem exists_cycle_of_mem [BEq α] [LawfulBEq α] {path : List α} (hway : (path ++ [a]).IsChain r) (ha : a ∈ path) :
    ∃ rest, path.dropWhile (· != a) = a :: rest ∧ a :: rest <:+ path ∧
      Cycle.Chain r ((a :: rest : List α) : Cycle α) := by
  obtain ⟨before, rest, rfl, hnew⟩ := List.eq_append_cons_of_mem ha
  have hpass : ∀ b ∈ before, (b != a) = true := by
    intro b hb
    simpa using fun heq : b = a => hnew (heq ▸ hb)
  have hfound : (before ++ a :: rest).dropWhile (· != a) = a :: rest := by
    rw [List.dropWhile_append_of_pos hpass]
    simp
  rw [List.append_assoc] at hway
  exact ⟨rest, hfound, List.suffix_append before _,
    (Cycle.chain_coe_cons r a rest).2 (List.isChain_append.1 hway).2.1⟩

/-! ### Ways to a cycle -/

/-- From `a` a cycle can be reached. -/
def ReachesCycle (r : α → α → Prop) (a : α) : Prop :=
  ∃ c, Relation.ReflTransGen r a c ∧ Relation.TransGen r c c

theorem ReachesCycle.of_self (h : Relation.TransGen r a a) : ReachesCycle r a :=
  ⟨a, .refl, h⟩

theorem ReachesCycle.head {b : α} (hab : r a b) : ReachesCycle r b → ReachesCycle r a
  | ⟨c, hbc, hc⟩ => ⟨c, .head hab hbc, hc⟩

theorem not_reachesCycle_of_acc (ha : Acc (fun b a => r a b) a) : ¬ ReachesCycle r a := by
  induction ha with
  | intro a _ ih =>
    rintro ⟨c, hac, hc⟩
    rcases hac.cases_head with rfl | ⟨b, hab, hbc⟩
    · obtain ⟨b, hab, hba⟩ := Relation.TransGen.head'_iff.1 hc
      exact ih b hab (.of_self (.tail' hba hab))
    · exact ih b hab ⟨c, hbc, hc⟩

end Metamodel
