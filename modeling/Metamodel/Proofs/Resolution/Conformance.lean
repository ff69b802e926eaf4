import Metamodel.Proofs.Interface.Flattening
import Metamodel.Proofs.Resolution.Completion
import Metamodel.Proofs.Resolution.Integrity

/-!
# Conformance of a resolved graph

Objects are checked against the flattened interfaces alone.  In a resolved graph this is as good as checking them
against every interface that they can reach: an object provides whatever those declare.
-/

namespace Metamodel

namespace Graph

/-- The object has every member that the interface declares: an attribute of its type that is no as-of attribute, an
as-of attribute that agrees on being a processing date, and a relationship of the cardinality that its key denotes. -/
structure Provides (g : Graph) (o : EntityId) (j : InterfaceDeclaration) : Prop where
  attributes : ∀ a ∈ j.attributes, ∃ b ∈ g.attributesOf o, b.name = a.name ∧ b.dataType = a.dataType ∧ b.isAsOf = false
  asOfAttributes : ∀ a ∈ j.asOfAttributes, ∃ b ∈ g.attributesOf o,
    b.name = a.name ∧ b.isAsOf = true ∧ b.isProcessingDate = a.isProcessingDate
  relationships : ∀ r ∈ j.relationships, ∃ c, Cardinality.ofKey? r.cardinality = some c ∧
    ∃ q ∈ g.relationshipsOf o, q.name = r.name ∧ q.cardinality = some c

section Gaps

variable {d : Declarations} {g : Graph} {o : EntityId} {i : Interface}

private theorem named_of_attributeNamed? {name : String} {b : Attribute}
    (h : (g.attributeNamed? o name).map g.attributeAt = some b) : b ∈ g.attributesOf o ∧ b.name = name := by
  obtain ⟨a, ha, rfl⟩ := Option.map_eq_some_iff.1 h
  exact ⟨List.mem_map_of_mem (List.mem_of_find?_eq_some ha), by simpa using List.find?_some ha⟩

private theorem named_of_relationshipNamed? {name : String} {q : Relationship}
    (h : (g.relationshipNamed? o name).map g.relationshipAt = some q) : q ∈ g.relationshipsOf o ∧ q.name = name := by
  obtain ⟨r, hr, rfl⟩ := Option.map_eq_some_iff.1 h
  exact ⟨List.mem_map_of_mem (List.mem_of_find?_eq_some hr), by simpa using List.find?_some hr⟩

private theorem exists_of_clean_attributeGaps {a : InterfaceAttribute} (clean : Clean (g.attributeGaps o i a)) :
    ∃ b ∈ g.attributesOf o, b.name = a.name ∧ b.dataType = a.dataType ∧ b.isAsOf = false := by
  unfold attributeGaps at clean
  dsimp only at clean
  split at clean
  · exact absurd clean (not_clean_singleton rfl)
  · rename_i b hb
    obtain ⟨hfound, hnot⟩ := Option.filter_eq_some_iff.1 hb
    obtain ⟨hmem, hname⟩ := named_of_attributeNamed? hfound
    split at clean
    · rename_i htype
      exact ⟨b, hmem, hname, htype, by simpa using hnot⟩
    · exact absurd clean (not_clean_singleton rfl)

private theorem exists_of_clean_asOfGaps {a : InterfaceAsOfDeclaration} (clean : Clean (g.asOfGaps o i a)) :
    ∃ b ∈ g.attributesOf o, b.name = a.name ∧ b.isAsOf = true ∧ b.isProcessingDate = a.isProcessingDate := by
  unfold asOfGaps at clean
  dsimp only at clean
  split at clean
  · rename_i hany
    obtain ⟨b, hfound, hb⟩ := (Option.any_eq_true ..).1 hany
    obtain ⟨hmem, hname⟩ := named_of_attributeNamed? hfound
    simp only [Bool.and_eq_true, beq_iff_eq] at hb
    exact ⟨b, hmem, hname, hb⟩
  · exact absurd clean (not_clean_singleton rfl)

private theorem exists_of_clean_relationshipGaps {r : InterfaceRelationship}
    (clean : Clean (g.relationshipGaps o i r)) :
    ∃ q ∈ g.relationshipsOf o, q.name = r.name ∧ q.cardinality = some r.cardinality := by
  unfold relationshipGaps at clean
  dsimp only at clean
  split at clean
  · rename_i hany
    obtain ⟨q, hfound, hq⟩ := (Option.any_eq_true ..).1 hany
    obtain ⟨hmem, hname⟩ := named_of_relationshipNamed? hfound
    exact ⟨q, hmem, hname, beq_iff_eq.1 hq⟩
  · exact absurd clean (not_clean_singleton rfl)

/-- An object without gaps has all that its interface demands. -/
private theorem provides_of_clean_interfaceGaps {name : String} (clean : Clean (interfaceGaps d g o name)) :
    ∃ decl flat, d.interfaceNamed? name = some decl ∧ g.interfaces.find? decl.qualifiedName = some flat ∧
      ∀ j, flat.Demands j → g.Provides o j := by
  unfold interfaceGaps at clean
  split at clean
  · exact absurd clean (not_clean_singleton rfl)
  · rename_i flat hflat
    obtain ⟨decl, hdecl, hfind⟩ := Option.bind_eq_some_iff.1 hflat
    simp only [clean_append, clean_flatMap] at clean
    obtain ⟨⟨hattributes, hasOf⟩, hrelationships⟩ := clean
    refine ⟨decl, flat, hdecl, hfind, fun j hj => ⟨fun a ha => ?_, fun a ha => ?_, fun r hr => ?_⟩⟩
    · obtain ⟨b, hb, hname, htype⟩ := hj.attributes a ha
      rw [← hname, ← htype]
      exact exists_of_clean_attributeGaps (hattributes b hb)
    · obtain ⟨b, hb, hname, hdate⟩ := hj.asOfAttributes a ha
      rw [← hname, ← hdate]
      exact exists_of_clean_asOfGaps (hasOf b hb)
    · obtain ⟨c, hc, b, hb, hname, rfl⟩ := hj.relationships r hr
      rw [← hname]
      exact ⟨b.cardinality, hc, exists_of_clean_relationshipGaps (hrelationships b hb)⟩

end Gaps

namespace ResolvesTo

variable {d : Declarations} {g₀ g : Graph} {o : EntityId} (c : ResolvesTo d g₀ g)

include c

/-- Interfaces are in the end as they were registered. -/
private theorem interfaces_eq : g.interfaces = g₀.interfaces :=
  (interfaces_of_disowned_eq c.disowned).trans (advances_joined c.standing).interfaces

private theorem provides (hd : d.InterfacesByName) (ho : o ∈ g₀.idsOfKind .object) {name : String}
    (hname : name ∈ (g.entity o).interfaces) :
    ∃ i, d.interfaceNamed? name = some i ∧ ∀ j, Relation.ReflTransGen d.Extends i j → g.Provides o j := by
  have hclean := c.conforming o ho
  rw [conformanceGaps, c.isFailed_eq_false ho, if_neg Bool.false_ne_true] at hclean
  obtain ⟨i, flat, hi, hflat, hprovides⟩ := provides_of_clean_interfaceGaps (clean_flatMap.1 hclean name hname)
  obtain ⟨k, hregister, hinterfaces⟩ := c.registered
  obtain ⟨flat', hflat', hdemands⟩ := demands_of_clean hd hregister (hd.find?_qualifiedName hi)
  rw [hinterfaces, ← c.interfaces_eq, hflat] at hflat'
  obtain rfl := Option.some.inj hflat'
  exact ⟨i, hi, fun j hij => hprovides j (hdemands j hij)⟩

end ResolvesTo

/-- The outline of a resolved graph is that of its declarations. -/
theorem outline_of_resolve {d : Declarations} {config : Config} {g : Graph} (hresolve : (d.resolve config).1 = .ok g) :
    g.outline = (ofDeclarations config d).1.1.outline := by
  obtain ⟨-, -, rfl⟩ := clean_of_resolve hresolve
  have hprepared := advances_prepared_staged config d
  rw [graph_of_resolveObjects, outline_of_disowned_eq (disowned_foldl_claimOwnership ..)]
  exact ((advances_joined hprepared.standing).outline.trans hprepared.outline).trans (follows_staged config d).outline

/-- In a resolved graph an object provides what is declared by the interfaces that its declaration names, and by every
interface that can be reached from them. -/
theorem provides_of_resolve {d : Declarations} {config : Config} {g : Graph} {o : EntityId}
    (hd : d.InterfacesByName) (hresolve : (d.resolve config).1 = .ok g) (ho : o ∈ g.idsOfKind .object) :
    ∃ entry ∈ d.objects.entries, (g.entity o).name = entry.2.name ∧ (g.entity o).interfaces = entry.2.interfaces ∧
      ∀ name ∈ entry.2.interfaces, ∃ i, d.interfaceNamed? name = some i ∧
        ∀ j, Relation.ReflTransGen d.Extends i j → g.Provides o j := by
  obtain ⟨g₀, c⟩ := exists_resolvesTo_of_resolve hresolve
  have houtline := outline_of_resolve hresolve
  have hstems : StemsFrom d g o := by
    refine StemsFrom.of_outline_eq houtline ((wraps_ofDeclarations config d).stems o ?_)
    rwa [← idsOfKind_of_outline_eq houtline]
  obtain ⟨entry, hentry, hname, hinterfaces⟩ := hstems
  rw [c.idsOfKind_eq] at ho
  exact ⟨entry, hentry, hname, hinterfaces, fun name hmem => c.provides hd ho (hinterfaces ▸ hmem)⟩

/-! ### An object with its interfaces -/

/-- What nodes of a tree are labelled with. -/
def labelled : InterfaceDeclaration where
  name := ⟨"tree", "Labelled"⟩
  attributes := [{ name := "label", dataType := .string }]

/-- Nodes that have a label, a parent, and the time since when they are known. -/
def placed : InterfaceDeclaration where
  name := ⟨"tree", "Placed"⟩
  superInterfaces := ["Labelled"]
  asOfAttributes := [{ name := "known", isProcessingDate := true }]
  relationships := [{ name := "parent", relatedObject := "Node", cardinality := "many-to-one" }]

/-- Nodes that are placed in a tree, and so labelled. -/
def tree : Declarations where
  objects := ⟨[
    ("tree.Node",
      { name := ⟨"tree", "Node"⟩
        attributes := [{ name := "id", dataType := .int, column := { primaryKey := true } },
          { name := "parentId", dataType := .int }, { name := "label", dataType := .string }]
        asOfAttributes := [{
          name := "known"
          settings := { fromColumn := some "IN_Z", toColumn := some "OUT_Z", isProcessingDate := true } }]
        relationships := [{
          name := "parent"
          relatedObject := "Node"
          cardinality := some "many-to-one"
          query := some "this.parentId = Node.id" }]
        interfaces := ["Placed"] })], by decide⟩
  interfaces := ⟨[("tree.Labelled", labelled), ("tree.Placed", placed)], by decide⟩

/-- The graph that the sample resolves to. -/
def treeGraph : Graph :=
  (tree.resolve .default).1.toOption.getD empty

private theorem treeGraph_facts :
    (tree.resolve .default).1.isOk = true ∧ 0 ∈ treeGraph.idsOfKind .object ∧
      (treeGraph.entity 0).interfaces = ["Placed"] := by
  decide +kernel

private theorem resolve_tree : (tree.resolve .default).1 = .ok treeGraph :=
  eq_ok_of_isOk treeGraph_facts.1 empty

/-- Nodes name one interface and provide what both declare. -/
theorem provides_of_tree :
    tree.InterfacesByName ∧ (tree.resolve .default).1 = .ok treeGraph ∧ 0 ∈ treeGraph.idsOfKind .object ∧
      (treeGraph.entity 0).interfaces = ["Placed"] ∧ tree.Extends placed labelled ∧
      treeGraph.Provides 0 placed ∧ treeGraph.Provides 0 labelled := by
  have hd : tree.InterfacesByName := by
    unfold Declarations.InterfacesByName
    decide
  obtain ⟨-, hobject, hdeclares⟩ := treeGraph_facts
  have hextends : tree.Extends placed labelled := ⟨"Labelled", by decide, by decide⟩
  obtain ⟨entry, -, -, hinterfaces, hall⟩ := provides_of_resolve hd resolve_tree hobject
  obtain ⟨i, hi, hprovides⟩ := hall "Placed" (by rw [← hinterfaces, hdeclares]; exact List.mem_singleton_self _)
  obtain rfl : placed = i := Option.some.inj (Eq.trans (by decide) hi)
  exact ⟨hd, resolve_tree, hobject, hdeclares, hextends, hprovides _ .refl, hprovides _ (.single hextends)⟩

end Graph

end Metamodel
