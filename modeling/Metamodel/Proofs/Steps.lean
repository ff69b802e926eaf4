import Mathlib.Data.List.Perm.Subperm

/-!
# Steps that suffice

A search that comes to no element of a list twice needs no more steps than the list has elements, and one more to see
that there is no other.
-/

namespace Metamodel

variable {α : Type} {all seen : List α} {steps : Nat}

/-- What has been seen are elements of `all`, each seen once, and the steps that are left suffice for the others. -/
structure Suffices (all : List α) (steps : Nat) (seen : List α) : Prop where
  nodup : seen.Nodup
  mem : ∀ a ∈ seen, a ∈ all
  steps : all.length < seen.length + steps

theorem suffices_nil (all : List α) (extra : Nat) : Suffices all (all.length + 1 + extra) [] where
  nodup := List.nodup_nil
  mem _ ha := absurd ha List.not_mem_nil
  steps := by
    rw [List.length_nil]
    omega

/-- No more elements have been seen than there are, so there is always a step left. -/
theorem not_suffices_zero : ¬ Suffices all 0 seen := by
  intro h
  have hle : seen.length ≤ all.length := (List.subperm_of_subset h.nodup h.mem).length_le
  have hlt := h.steps
  omega

namespace Suffices

theorem exists_succ (h : Suffices all steps seen) : ∃ n, steps = n + 1 :=
  Nat.exists_eq_succ_of_ne_zero fun hzero => not_suffices_zero (hzero ▸ h)

/-- New elements leave enough steps for the others. -/
theorem append (h : Suffices all (steps + 1) seen) {level : List α} (hne : level ≠ []) (hmem : ∀ a ∈ level, a ∈ all)
    (hnodup : (level ++ seen).Nodup) : Suffices all steps (level ++ seen) where
  nodup := hnodup
  mem := List.forall_mem_append.2 ⟨hmem, h.mem⟩
  steps := by
    have hpos := List.length_pos_iff.2 hne
    have hlt := h.steps
    rw [List.length_append]
    omega

theorem cons (h : Suffices all (steps + 1) seen) {a : α} (hmem : a ∈ all) (hnew : a ∉ seen) :
    Suffices all steps (a :: seen) :=
  h.append (List.cons_ne_nil a []) (by simpa using hmem) (List.nodup_cons.2 ⟨hnew, h.nodup⟩)

theorem concat (h : Suffices all (steps + 1) seen) {a : α} (hmem : a ∈ all) (hnew : a ∉ seen) :
    Suffices all steps (seen ++ [a]) := by
  obtain ⟨hnodup, hall, hsteps⟩ := h.cons hmem hnew
  have hperm : (seen ++ [a]).Perm (a :: seen) := List.perm_append_comm
  exact ⟨hperm.nodup_iff.2 hnodup, fun b hb => hall b (hperm.mem_iff.1 hb), by rwa [hperm.length_eq]⟩

end Suffices

end Metamodel
