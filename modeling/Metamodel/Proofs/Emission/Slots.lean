import Mathlib.Data.List.Perm.Basic
import Metamodel.Emission.Slot
import Metamodel.Proofs.Graph.Elements

/-!
# What slots hold

The slots of a graph hold the objects to emit, each of them once.
-/

namespace Metamodel

namespace NameMap

/-- A name before all others is bound to nothing. -/
private theorem lookup_eq_none_of_lt {α : Type} {name : String} {l : List (String × α)} (h : ∀ e ∈ l, name < e.1) :
    l.lookup name = none := by
  rw [List.lookup_eq_none_iff]
  intro e he
  have hne : name ≠ e.1 := fun heq => String.lt_irrefl name (by have := h e he; rwa [← heq] at this)
  simpa using hne

/-- An element that is added to the list of a name is added to all the elements. -/
private theorem flatten_values_insert {β : Type} (m : NameMap (List β)) (name : String) (b : β) :
    (m.insert name ((m.find? name).getD [] ++ [b])).values.flatten.Perm (m.values.flatten ++ [b]) := by
  obtain ⟨l, hl⟩ := m
  show ((insertEntry name ((l.lookup name).getD [] ++ [b]) l).map (·.2)).flatten.Perm ((l.map (·.2)).flatten ++ [b])
  induction l with
  | nil => simp [insertEntry]
  | cons e rest ih =>
    obtain ⟨key, bs⟩ := e
    obtain ⟨hfirst, hrest⟩ := List.pairwise_cons.1 hl
    rw [List.lookup_cons, insertEntry]
    by_cases heq : name = key
    · subst heq
      rw [if_neg (String.lt_irrefl name), if_pos rfl, beq_self_eq_true]
      have hmoved : ([b] ++ (rest.map (·.2)).flatten).Perm ((rest.map (·.2)).flatten ++ [b]) := List.perm_append_comm
      simpa using hmoved.append_left bs
    · rw [beq_eq_false_iff_ne.2 heq]
      by_cases hlt : name < key
      · have hnone : rest.lookup name = none :=
          lookup_eq_none_of_lt fun e he => String.lt_trans hlt (hfirst e he)
        have hmoved : ([b] ++ (bs ++ (rest.map (·.2)).flatten)).Perm (bs ++ (rest.map (·.2)).flatten ++ [b]) :=
          List.perm_append_comm
        rw [if_pos hlt]
        simpa [hnone] using hmoved
      · rw [if_neg hlt, if_neg heq]
        simpa using (ih hrest).append_left bs

end NameMap

namespace Graph

variable (g : Graph)

theorem nodup_emittedObjects : g.emittedObjects.Nodup :=
  (g.nodup_idsOfKind .object).filter _

theorem mem_emittedObjects {id : EntityId} :
    id ∈ g.emittedObjects ↔ id ∈ g.idsOfKind .object ∧ (g.entity id).imported = false := by
  rw [emittedObjects, List.mem_filter]
  simp

/-- Grouped by hierarchy, the objects to emit are what they were. -/
private theorem flatten_hierarchies : g.hierarchies.values.flatten.Perm g.emittedObjects := by
  -- The induction is on the objects that have found their group.
  have hgroups : ∀ (ids : List EntityId) (m : NameMap (List EntityId)),
      (ids.foldl (fun m id => m.insert (g.rootName id) ((m.find? (g.rootName id)).getD [] ++ [id]))
        m).values.flatten.Perm (m.values.flatten ++ ids) := by
    intro ids
    induction ids with
    | nil => simp
    | cons id ids ih =>
      intro m
      rw [List.foldl_cons]
      refine (ih _).trans ?_
      have hgrown := (m.flatten_values_insert (g.rootName id) id).append_right ids
      rwa [List.append_assoc, List.singleton_append] at hgrown
  exact hgroups g.emittedObjects .empty

/-- The slots hold the objects to emit. -/
theorem flatten_slots : g.slots.flatten.Perm g.emittedObjects := by
  refine List.Perm.trans ?_ g.flatten_hierarchies
  have hsorted := List.Perm.flatMap_left g.hierarchies.values
    fun (ids : List EntityId) _ => List.mergeSort_perm ids g.slotOrder
  rwa [List.flatMap_id', List.flatMap_def] at hsorted

end Graph

end Metamodel
