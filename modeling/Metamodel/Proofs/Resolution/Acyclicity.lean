import Metamodel.Proofs.Resolution.Naming

/-!
# Cycles of interfaces in a resolved graph

The search for cycles follows super interfaces by their qualified names, and takes a name for the key of an interface.
So what resolves has no cycle among interfaces that stand under their names: every cycle goes through one that does not,
and so does the lineage of an interface that is registered as one of its own super interfaces.
-/

namespace Metamodel

namespace Graph

variable {d : Declarations} {config : Config} {g : Graph}

/-- Every registered interface represents a declaration. -/
private theorem exists_represents_of_resolve (hresolve : (d.resolve config).1 = .ok g) {i : Interface}
    (hi : i ∈ g.interfaces.values) : ∃ decl ∈ d.interfaces.values, i.Represents d decl := by
  obtain ⟨e, he, rfl⟩ := List.mem_map.1 hi
  have hfound := g.interfaces.find?_eq_some_iff.2 he
  have hfind := find?_interfaces_of_resolve hresolve e.1
  cases hlast : lastNamed? e.1 d.interfaces.values with
  | none =>
    rw [hlast, hfound] at hfind
    cases hfind
  | some decl =>
    rw [hlast, hfound] at hfind
    obtain ⟨i, hrepresents, hsame⟩ := hfind
    rw [Option.some.inj hsame]
    exact ⟨decl, (mem_of_lastNamed? hlast).1, hrepresents⟩

/-- In what resolves, every cycle of super interfaces goes through an interface that does not stand under its qualified
name, and an interface is registered as one of its own super interfaces only if such an interface is at or above its
declaration. -/
theorem cycles_of_resolve (hresolve : (d.resolve config).1 = .ok g) :
    (∀ i, Relation.TransGen d.Extends i i →
      ∃ j, Relation.TransGen d.Extends i j ∧ Relation.TransGen d.Extends j i ∧ ¬ d.StandsByName j) ∧
    ∀ i ∈ g.interfaces.values, i.qualifiedName ∈ i.superInterfaces →
      ∃ decl ∈ d.interfaces.values, decl.name = i.name ∧
        ∃ j, Relation.ReflTransGen d.Extends decl j ∧ ¬ d.StandsByName j := by
  obtain ⟨hregister, -⟩ := clean_of_resolve hresolve
  obtain ⟨hsearch, -⟩ := clean_append.1 hregister
  refine ⟨fun i hcycle => Declarations.exists_misplaced_of_cycle hsearch hcycle, fun i hi hself => ?_⟩
  obtain ⟨decl, hdecl, hrepresents⟩ := exists_represents_of_resolve hresolve hi
  refine ⟨decl, hdecl, hrepresents.name.symm, ?_⟩
  have hname : i.qualifiedName = decl.qualifiedName := congrArg TypeName.qualified hrepresents.name
  rw [hrepresents.superInterfaces, hname] at hself
  obtain ⟨j, hj, hsame⟩ := List.mem_map.1 hself
  have habove : Relation.TransGen d.Extends decl j := Declarations.transGen_of_mem_superInterfacesOf hj
  by_cases hplaced : d.StandsByName decl
  · by_cases hplaced' : d.StandsByName j
    · -- Both stand under one name, so they are the same, and the way from one to the other is a cycle.
      obtain rfl : decl = j := by
        unfold Declarations.StandsByName at hplaced hplaced'
        rw [← hsame, hplaced'] at hplaced
        exact (Option.some.inj hplaced).symm
      obtain ⟨k, hk, -, hnot⟩ := Declarations.exists_misplaced_of_cycle hsearch habove
      exact ⟨k, hk.to_reflTransGen, hnot⟩
    · exact ⟨j, habove.to_reflTransGen, hplaced'⟩
  · exact ⟨decl, .refl, hplaced⟩

/-! ### A cycle under simple names -/

def audited : InterfaceDeclaration where
  name := ⟨"com.acme", "Audited"⟩
  superInterfaces := ["Document"]
  attributes := [{ name := "createdBy", dataType := .string }]

def document : InterfaceDeclaration where
  name := ⟨"com.acme", "Document"⟩
  superInterfaces := ["Audited"]
  attributes := [{ name := "title", dataType := .string }]

/-- Two interfaces above each other, under their simple names. -/
def documents : Declarations where
  interfaces := ⟨[("Audited", audited), ("Document", document)], by decide⟩

/-- The graph that the sample resolves to. -/
def documentsGraph : Graph :=
  (documents.resolve .default).1.toOption.getD empty

private theorem documentsGraph_facts :
    (documents.resolve .default).1.isOk = true ∧
      documentsGraph.interfaces.values.map (fun i => (i.qualifiedName, i.superInterfaces)) =
        [("com.acme.Audited", ["com.acme.Document", "com.acme.Audited"]),
          ("com.acme.Document", ["com.acme.Audited", "com.acme.Document"])] ∧
      ∃ i ∈ documentsGraph.interfaces.values, i.qualifiedName ∈ i.superInterfaces := by
  decide +kernel

private theorem resolve_documents : (documents.resolve .default).1 = .ok documentsGraph :=
  eq_ok_of_isOk documentsGraph_facts.1 empty

private theorem transGen_of_documents : Relation.TransGen documents.Extends audited audited := by
  have hup : documents.Extends audited document := ⟨"Document", by decide, by decide⟩
  have hback : documents.Extends document audited := ⟨"Audited", by decide, by decide⟩
  exact .head hup (.single hback)

/-- Each can reach itself, and is registered so. -/
theorem cycle_of_documents :
    (documents.resolve .default).1 = .ok documentsGraph ∧ Relation.TransGen documents.Extends audited audited ∧
      documentsGraph.interfaces.values.map (fun i => (i.qualifiedName, i.superInterfaces)) =
        [("com.acme.Audited", ["com.acme.Document", "com.acme.Audited"]),
          ("com.acme.Document", ["com.acme.Audited", "com.acme.Document"])] :=
  ⟨resolve_documents, transGen_of_documents, documentsGraph_facts.2.1⟩

/-- The cycle goes through an interface that does not stand under its name, and so does what is registered above
itself. -/
theorem misplaced_of_documents :
    (documents.resolve .default).1 = .ok documentsGraph ∧
      (∃ j, Relation.TransGen documents.Extends audited j ∧ ¬ documents.StandsByName j) ∧
      ∃ i ∈ documentsGraph.interfaces.values, i.qualifiedName ∈ i.superInterfaces ∧
        ∃ decl ∈ documents.interfaces.values, decl.name = i.name ∧
          ∃ j, Relation.ReflTransGen documents.Extends decl j ∧ ¬ documents.StandsByName j := by
  obtain ⟨hcycles, hregistered⟩ := cycles_of_resolve resolve_documents
  obtain ⟨j, hj, -, hnot⟩ := hcycles audited transGen_of_documents
  obtain ⟨-, -, i, hi, hlisted⟩ := documentsGraph_facts
  exact ⟨resolve_documents, ⟨j, hj, hnot⟩, i, hi, hlisted, hregistered i hi hlisted⟩

end Graph

end Metamodel
