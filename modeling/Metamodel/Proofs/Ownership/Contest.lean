import Mathlib.Data.List.Induction
import Metamodel.Ownership.Claim

/-!
# Contests for an attribute

`OwnershipKey.precedes` is a strict total order.  Whoever claims an attribute is only compared with its owner of
the moment; still the last claim of the relationship with the least key is what remains of any sequence of claims
(`exists_foldl_contest`).
-/

namespace Metamodel

namespace OwnershipKey

/-! ### The order of keys -/

private theorem compare_eq_compareLex :
    compare = compareLex (compareOn independent) (compareLex (compareOn nameLength) (compareLex (compareOn name)
      (compareLex (compareOn owner) (compareLex (compareOn related) (compareOn reverse))))) :=
  rfl

instance : Std.TransCmp compare := by
  rw [compare_eq_compareLex]
  infer_instance

private theorem eq_of_compare_eq {a b : OwnershipKey} (h : a.compare b = .eq) : a = b := by
  simp only [compare, Ordering.then_eq_eq, Std.LawfulEqOrd.compare_eq_iff_eq] at h
  obtain ⟨h₁, h₂, h₃, h₄, h₅, h₆⟩ := h
  cases a
  cases b
  simp_all

theorem precedes_irrefl (a : OwnershipKey) : a.precedes a = false := by
  simp [precedes, Std.ReflCmp.compare_self]

theorem precedes_trans {a b c : OwnershipKey} (hab : a.precedes b) (hbc : b.precedes c) : a.precedes c := by
  simp only [precedes, beq_iff_eq] at hab hbc ⊢
  exact Std.TransCmp.lt_trans hab hbc

theorem precedes_of_not_precedes {a b : OwnershipKey} (hne : a ≠ b) (h : b.precedes a = false) : a.precedes b := by
  simp only [precedes, beq_iff_eq, beq_eq_false_iff_ne] at h ⊢
  rcases hc : a.compare b with _ | _ | _
  · rfl
  · exact absurd (eq_of_compare_eq hc) hne
  · exact absurd (Std.OrientedCmp.lt_of_gt hc) h

end OwnershipKey

/-! ### Sequences of claims on one attribute -/

variable (rank : RelationshipId → OwnershipKey)

/-- The owner of an attribute after one more claim. -/
def contest : Option Ownership → Ownership → Option Ownership
  | none, claim => some claim
  | some owner, claim =>
    if owner.relationship == claim.relationship || (rank claim.relationship).precedes (rank owner.relationship) then
      some claim
    else some owner

/-- Out of a sequence of claims comes the last one of a relationship that no other precedes. -/
theorem exists_foldl_contest (claims : List Ownership) (hne : claims ≠ []) :
    ∃ w, claims.foldl (contest rank) none = some w ∧
      (∀ c ∈ claims, (rank c.relationship).precedes (rank w.relationship) = false) ∧
      (claims.filter (·.relationship == w.relationship)).getLast? = some w := by
  -- from the right: the last claim meets the winner of those before it
  induction claims using List.reverseRecOn with
  | nil => exact absurd rfl hne
  | append_singleton claims c ih =>
    rw [List.foldl_append]
    rcases List.eq_nil_or_concat claims with rfl | ⟨_, _, _⟩
    · exact ⟨c, rfl, by simp [OwnershipKey.precedes_irrefl], by simp⟩
    obtain ⟨w, hw, hleast, hlast⟩ := ih (by simp_all)
    rw [hw]
    simp only [List.foldl_cons, List.foldl_nil, contest]
    split
    · rename_i htake
      refine ⟨c, rfl, ?_, by simp⟩
      intro d hd
      rcases List.mem_append.1 hd with hd | hd
      · rcases Bool.or_eq_true_iff.1 htake with same | better
        · rw [← beq_iff_eq.1 same]
          exact hleast d hd
        · refine Bool.eq_false_iff.2 fun hdc => ?_
          have := OwnershipKey.precedes_trans hdc better
          rw [hleast d hd] at this
          exact Bool.false_ne_true this
      · obtain rfl := List.mem_singleton.1 hd
        exact OwnershipKey.precedes_irrefl _
    · rename_i hkeep
      simp only [Bool.not_eq_true, Bool.or_eq_false_iff, beq_eq_false_iff_ne] at hkeep
      refine ⟨w, rfl, ?_, ?_⟩
      · intro d hd
        rcases List.mem_append.1 hd with hd | hd
        · exact hleast d hd
        · obtain rfl := List.mem_singleton.1 hd
          exact hkeep.2
      · simp [List.filter_append, Ne.symm hkeep.1, hlast]

end Metamodel
