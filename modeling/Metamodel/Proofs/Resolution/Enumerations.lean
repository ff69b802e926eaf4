import Metamodel.Proofs.Resolution.Guarantees
import Metamodel.Proofs.Resolution.Provenance

/-!
# Attributes and their enumerations

In a resolved graph an attribute of an enumeration and the enumeration tell the same, whether the attribute is
declared, declared again or inherited: the type of the attribute is what the enumeration is stored as, integers or
texts, and its members and its class are those of the enumeration.
-/

namespace Metamodel

/-- The settings of an enumeration attribute of type `t` describe the enumeration that they are bound to. -/
structure EnumerationSettings.Describes (g : Graph) (t : DataType) (s : EnumerationSettings) (e : EntityId) : Prop where
  target : s.target = some e
  kind : e ∈ g.idsOfKind .enumeration
  dataType : (g.entity e).persistedType = some t
  stored : t = .int ∨ t = .string
  members : s.members = (g.entity e).members
  className : s.className = some (g.entity e).name.simple

namespace EnumerationDeclaration

/-- An enumeration without a problem is stored as integers or as texts. -/
theorem persistedType_of_problems {e : EnumerationDeclaration} (h : e.problems = []) :
    e.persistedType = .int ∨ e.persistedType = .string := by
  obtain ⟨hstored, -⟩ := List.append_eq_nil_iff.1 h
  by_contra hother
  rw [if_neg hother] at hstored
  cases hstored

end EnumerationDeclaration

namespace Graph

variable {d : Declarations} {config : Config} {g : Graph}

/-- Problems of enumerations are errors of the last stage. -/
theorem problems_of_clean {declared : List (EntityId × String)} (clean : Clean (resolveObjects d declared g).2) :
    ∀ entry ∈ d.enumerations.entries, entry.2.problems = [] := by
  intro entry hentry
  simp only [resolveObjects, Found.andThen_eq, clean_append] at clean
  obtain ⟨⟨⟨⟨⟨⟨hproblems, -⟩, -⟩, -⟩, -⟩, -⟩, -⟩ := clean
  exact eq_nil_of_clean_map (fun _ => rfl) (clean_flatMap.1 hproblems entry hentry)

/-- Settings that are bound and backed describe their enumeration, if this is stored as integers or as texts. -/
private theorem describes_of_isBacked {t : DataType} {s : EnumerationSettings} (hs : s.IsBacked g t)
    (hbound : s.target.isSome)
    (hstored : ∀ e ∈ g.idsOfKind .enumeration, ∀ t, (g.entity e).persistedType = some t → t = .int ∨ t = .string) :
    ∃ e, s.Describes g t e := by
  obtain ⟨e, htarget⟩ := Option.isSome_iff_exists.1 hbound
  obtain ⟨hkind, htype, hmembers⟩ := hs.bound e htarget
  refine ⟨e, htarget, hkind, htype, hstored e hkind t htype, hmembers, ?_⟩
  rw [hs.className, htarget, Option.map_some]

/-- Every enumeration attribute of a resolved graph describes an enumeration of the graph. -/
theorem enumerations_of_resolve (hresolve : (d.resolve config).1 = .ok g) {o : EntityId}
    (ho : o ∈ g.idsOfKind .object) :
    ∀ a ∈ g.attributesOf o, ∀ s, a.kind = .enumeration s → ∃ e, s.Describes g a.dataType e := by
  obtain ⟨g₀, c, hdeclares⟩ := exists_traced_of_resolve hresolve
  obtain ⟨-, hclean, -⟩ := clean_of_resolve hresolve
  have eq := c.outline_eq
  have hstored : ∀ e ∈ g.idsOfKind .enumeration, ∀ t, (g.entity e).persistedType = some t →
      t = .int ∨ t = .string := by
    intro e he t ht
    rw [c.idsOfKind_eq] at he
    obtain ⟨entry, hentry, htype⟩ := hdeclares.stored e he
    rw [persistedType_of_outline_eq eq, htype] at ht
    obtain rfl := Option.some.inj ht
    exact EnumerationDeclaration.persistedType_of_problems (problems_of_clean hclean entry hentry)
  rw [c.idsOfKind_eq] at ho
  intro a ha s hkind
  obtain ⟨i, hi, rfl⟩ := List.mem_map.1 ha
  rw [c.attributeList_eq] at hi
  have hmarked : g₀.settled.marked o i ∈ (g₀.settled.membersOf o).attributes := List.mem_map_of_mem hi
  rw [c.read_attributeAt Attribute.kind fun _ => rfl] at hkind
  rw [c.read_attributeAt Attribute.dataType fun _ => rfl]
  have hbacked := (c.isBackedBy hdeclares.traced ho _ hmarked).enumeration s hkind
  have hbound := isSome_target_of_problems hkind (c.problems_eq_nil ho _ hmarked)
  exact describes_of_isBacked (isBacked_of_outline_eq eq hbacked) hbound hstored

/-- In the sample the clerk inherits the rank that the employee declares again. -/
theorem enumerations_of_staff :
    (staff.resolve .default).1 = .ok staffGraph ∧ 1 ∈ staffGraph.idsOfKind .object ∧
      ((staffGraph.attributesOf 1).filter (·.isEnumeration)).map (fun a => (a.name, a.originalOwner)) =
        [("rank", some 2)] ∧
      ∀ a ∈ staffGraph.attributesOf 1, ∀ s, a.kind = .enumeration s → ∃ e, s.Describes staffGraph a.dataType e := by
  have hobject : 1 ∈ staffGraph.idsOfKind .object := by decide +kernel
  exact ⟨resolve_staff, hobject, by decide +kernel, enumerations_of_resolve resolve_staff hobject⟩

end Graph

end Metamodel
