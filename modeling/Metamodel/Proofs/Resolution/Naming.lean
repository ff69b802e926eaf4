import Metamodel.Proofs.Resolution.Conformance

/-!
# Names of types in a resolved graph

Enumerations, embedded value objects and objects share one table, in which a name can be taken only once.  Each of them
becomes an entity or is reported, so a resolved graph has all of them, under names of their own (`types_of_resolve`).
Interfaces are kept in a table of their own.  No name is refused there: what is registered under it is the last of the
interfaces that have it, and it may be the name of an entity as well.
-/

namespace Metamodel

/-- Enumerations, embedded value objects and objects, in the order in which they become entities. -/
def Declarations.types (d : Declarations) : List (EntityKind × TypeName) :=
  d.enumerations.values.map (fun e => (.enumeration, e.name)) ++
    d.embeddedObjects.values.map (fun e => (.embeddedValue, e.name)) ++ d.objects.values.map fun o => (.object, o.name)

namespace Graph

/-- The kind and the name of an entity. -/
def typeAt (g : Graph) (id : EntityId) : EntityKind × TypeName :=
  ((g.entity id).kind, (g.entity id).name)

def types (g : Graph) : List (EntityKind × TypeName) :=
  g.entityIds.map g.typeAt

variable {g h k : Graph}

private theorem types_of_outline_eq (eq : h.outline = g.outline) : h.types = g.types := by
  have hsame : h.typeAt = g.typeAt := by
    funext id
    rw [typeAt, kind_of_outline_eq eq, name_of_outline_eq eq]
    rfl
  rw [types, types, entityIds, size_of_outline_eq eq, hsame]
  rfl

private theorem types_push (g : Graph) (e : Entity) :
    (g.push e).types = g.types ++ [(e.kind, e.name)] := by
  have hold : ∀ id ∈ List.range g.entities.size,
      (g.push e).typeAt id = g.typeAt id := by
    intro id hid
    rw [typeAt, entity_push, if_neg (Nat.ne_of_lt (List.mem_range.1 hid))]
    rfl
  have hnew : (g.push e).typeAt g.entities.size = (e.kind, e.name) := by
    rw [typeAt, entity_push, if_pos rfl]
  rw [types, entityIds, size_push, List.range_succ, List.map_append, List.map_congr_left hold, List.map_singleton,
    hnew]
  rfl

/-- Where no two entities share a name, their names occur once each. -/
private theorem Intact.nodup_types (hg : g.Intact) : (g.types.map (·.2.qualified)).Nodup := by
  have hnames : g.types.map (·.2.qualified) = g.entityIds.map g.qualifiedName := List.map_map
  rw [hnames]
  refine List.Nodup.map_on (fun i hi j hj hij => ?_) List.nodup_range
  exact hg.distinct i (List.mem_range.1 hi) j (List.mem_range.1 hj) hij

/-! ### Members -/

/-- No entity and no interface comes or goes. -/
structure Keeps (g h : Graph) : Prop where
  outline : h.outline = g.outline
  interfaces : h.interfaces = g.interfaces

namespace Keeps

theorem refl (g : Graph) : Keeps g g :=
  ⟨rfl, rfl⟩

theorem trans (first : Keeps g h) (second : Keeps h k) : Keeps g k :=
  ⟨second.outline.trans first.outline, second.interfaces.trans first.interfaces⟩

theorem foldl {α : Type} {step : Graph → α → Graph} (hstep : ∀ g a, Keeps g (step g a)) (as : List α) (g : Graph) :
    Keeps g (as.foldl step g) :=
  List.foldlRecOn as step (motive := Keeps g) (.refl g) fun _ hh a _ => hh.trans (hstep _ a)

theorem addAttribute (g : Graph) (a : Attribute) : Keeps g (g.addAttribute a) :=
  ⟨outline_addAttribute .., rfl⟩

theorem addAttributes {α : Type} (g : Graph) (make : α → Attribute) (ds : List α) : Keeps g (g.addAttributes make ds) :=
  .foldl (fun g d => .addAttribute g (make d)) ds g

theorem addSource (g : Graph) (id : EntityId) (defaults : MemberDefaults) (source : Option SourceDeclaration) :
    Keeps g (g.addSource id defaults source) := by
  cases source with
  | none => exact .refl g
  | some d =>
    have hadded := addAttribute g (.ofSource d id defaults)
    exact hadded.trans ⟨outline_modifyEntity _ id fun _ => rfl, rfl⟩

theorem addMembers (g : Graph) (id : EntityId) (defaults : MemberDefaults) (d : ObjectDeclaration) :
    Keeps g (g.addMembers id defaults d) := by
  let g₁ := g.addAttributes (Attribute.ofDeclaration · id defaults) d.attributes
  let g₂ := g₁.addAttributes (Attribute.ofAsOf · id defaults) d.asOfAttributes
  let g₃ := g₂.addAttributes (g₂.enumerationAttribute id defaults) d.enumerationAttributes
  have h₃ : Keeps g g₃ := ((addAttributes g _ _).trans (addAttributes g₁ _ _)).trans (addAttributes g₂ _ _)
  refine (h₃.trans (addSource g₃ id defaults d.sourceAttribute)).trans ?_
  exact .foldl (fun g r => ⟨outline_addRelationship .., rfl⟩) d.relationships _

end Keeps

/-! ### Types -/

/-- Declared types become the last entities, in order, unless there is an error; and interfaces stay as they are. -/
structure Admits (declared : List (EntityKind × TypeName)) (g h : Graph) (issues : List Issue) : Prop where
  interfaces : h.interfaces = g.interfaces
  types : Clean issues → h.types = g.types ++ declared

namespace Admits

variable {first second : List (EntityKind × TypeName)} {here later : List Issue}

theorem refl (g : Graph) : Admits [] g g [] :=
  ⟨rfl, fun _ => (List.append_nil _).symm⟩

theorem trans (hgh : Admits first g h here) (hhk : Admits second h k later) :
    Admits (first ++ second) g k (here ++ later) where
  interfaces := hhk.interfaces.trans hgh.interfaces
  types clean := by
    obtain ⟨hhere, hlater⟩ := clean_append.1 clean
    rw [hhk.types hlater, hgh.types hhere, List.append_assoc]

/-- Types that are declared one after the other. -/
theorem gather {σ α : Type} (graph : σ → Graph) {type : α → EntityKind × TypeName} {step : σ → α → Found σ}
    (hstep : ∀ s a, Admits [type a] (graph s) (graph (step s a).1) (step s a).2) (as : List α) (s : σ) :
    Admits (as.map type) (graph s) (graph (gather step s as).1) (gather step s as).2 := by
  induction as generalizing s with
  | nil => exact .refl (graph s)
  | cons a as ih => exact (hstep s a).trans (ih (step s a).1)

/-- A type whose name is taken is an error. -/
theorem refused {type : EntityKind × TypeName} {i : Issue} (hi : i.isError = true) : Admits [type] g g [i] :=
  ⟨rfl, fun clean => absurd clean (not_clean_singleton hi)⟩

/-- A type whose name is free becomes an entity, and gets its members. -/
theorem added {e : Entity} {id : EntityId} (hadd : g.addEntity? e = some (h, id)) (hkeeps : Keeps h k) :
    Admits [(e.kind, e.name)] g k [] := by
  obtain ⟨rfl, -⟩ := eq_of_addEntity? hadd
  exact ⟨hkeeps.interfaces, fun _ => (types_of_outline_eq hkeeps.outline).trans (types_push g e)⟩

end Admits

private theorem admits_declareEnumeration (g : Graph) (entry : String × EnumerationDeclaration) :
    Admits [(.enumeration, entry.2.name)] g (declareEnumeration g entry).1 (declareEnumeration g entry).2 := by
  obtain ⟨key, d⟩ := entry
  simp only [declareEnumeration]
  split
  · exact .refused rfl
  · rename_i hadd
    exact .added hadd (.refl _)

private theorem admits_declareEmbedded (g : Graph) (entry : String × EmbeddedObjectDeclaration) :
    Admits [(.embeddedValue, entry.2.name)] g (declareEmbedded g entry).1 (declareEmbedded g entry).2 := by
  obtain ⟨key, d⟩ := entry
  simp only [declareEmbedded]
  split
  · exact .refused rfl
  · rename_i hadd
    exact .added hadd (.addAttributes ..)

private theorem admits_declareObject (config : Config) (s : WithKeys) (entry : String × ObjectDeclaration) :
    Admits [(.object, entry.2.name)] s.1 (declareObject config s entry).1.1 (declareObject config s entry).2 := by
  obtain ⟨key, d⟩ := entry
  simp only [declareObject]
  split
  · exact .refused rfl
  · rename_i hadd
    exact .added hadd (.addMembers ..)

private theorem admits_ofDeclarations (config : Config) (d : Declarations) :
    Admits d.types empty (ofDeclarations config d).1.1 (ofDeclarations config d).2 := by
  let g₁ := (gather declareEnumeration empty d.enumerations.entries).1
  let g₂ := (gather declareEmbedded g₁ d.embeddedObjects.entries).1
  have henumerations := Admits.gather (fun g => g) admits_declareEnumeration d.enumerations.entries empty
  have hembedded := Admits.gather (fun g => g) admits_declareEmbedded d.embeddedObjects.entries g₁
  have hobjects := Admits.gather (fun s : WithKeys => s.1) (admits_declareObject config) d.objects.entries (g₂, [])
  have hall := (henumerations.trans hembedded).trans hobjects
  simp only [Declarations.types, NameMap.values, List.map_map]
  exact hall

/-! ### A resolved graph -/

section Resolved

variable {d : Declarations} {config : Config} {g : Graph}

/-- The interfaces of a resolved graph are those that were registered. -/
private theorem interfaces_of_resolve (hresolve : (d.resolve config).1 = .ok g) :
    g.interfaces = ((ofDeclarations config d).1.1.registerInterfaces d).1.interfaces := by
  obtain ⟨-, -, rfl⟩ := clean_of_resolve hresolve
  have hembedded := advances_resolveEmbeddedValues (standing_registerInterfaces (standing_ofDeclarations config d) d)
  have hprepared := advances_prepared_staged config d
  rw [graph_of_resolveObjects, interfaces_of_disowned_eq (disowned_foldl_claimOwnership ..)]
  exact ((advances_joined hprepared.standing).interfaces.trans hprepared.interfaces).trans hembedded.interfaces

/-- What stands under a name in a resolved graph represents the last interface that has it. -/
theorem find?_interfaces_of_resolve (hresolve : (d.resolve config).1 = .ok g) (name : String) :
    match lastNamed? name d.interfaces.values with
    | some decl => ∃ i : Interface, i.Represents d decl ∧ g.interfaces.find? name = some i
    | none => g.interfaces.find? name = none := by
  obtain ⟨hregister, -⟩ := clean_of_resolve hresolve
  have hfind := find?_registerInterfaces hregister name
  rw [(admits_ofDeclarations config d).interfaces] at hfind
  rw [interfaces_of_resolve hresolve]
  exact hfind

/-- A resolved graph has every enumeration, embedded value object and object that is declared, in order and under names
that occur once.  Every interface is registered under its name, unless one of the same name comes after it and is. -/
theorem types_of_resolve (hresolve : (d.resolve config).1 = .ok g) :
    g.types = d.types ∧ (d.types.map (·.2.qualified)).Nodup ∧
      ∀ i ∈ d.interfaces.values, ∃ decl flat, lastNamed? i.qualifiedName d.interfaces.values = some decl ∧
        g.interfaces.find? i.qualifiedName = some flat ∧ flat.Represents d decl := by
  have htypes : (ofDeclarations config d).1.1.types = d.types :=
    (admits_ofDeclarations config d).types (clean_ofDeclarations_of_resolve hresolve)
  refine ⟨(types_of_outline_eq (outline_of_resolve hresolve)).trans htypes, ?_, fun i hi => ?_⟩
  · rw [← htypes]
    exact (standing_ofDeclarations config d).intact.nodup_types
  · have hfind := find?_interfaces_of_resolve hresolve i.qualifiedName
    cases hlast : lastNamed? i.qualifiedName d.interfaces.values with
    | none =>
      have hmem : i ∈ d.interfaces.values.filter (·.qualifiedName == i.qualifiedName) :=
        List.mem_filter.2 ⟨hi, beq_self_eq_true _⟩
      rw [List.getLast?_eq_none_iff.1 hlast] at hmem
      cases hmem
    | some decl =>
      rw [hlast] at hfind
      obtain ⟨flat, hflat, hfound⟩ := hfind
      exact ⟨decl, flat, rfl, hfound, hflat⟩

end Resolved

/-! ### One name for three types -/

/-- An object and two interfaces, all of one name. -/
def audits : Declarations where
  objects := ⟨[("com.acme.Audited", { name := ⟨"com.acme", "Audited"⟩ })], by decide⟩
  interfaces := ⟨[
    ("audit", { name := ⟨"com.acme", "Audited"⟩, attributes := [{ name := "createdBy", dataType := .string }] }),
    ("audit2", { name := ⟨"com.acme", "Audited"⟩, attributes := [{ name := "title", dataType := .string }] })],
    by decide⟩

/-- The graph that the sample resolves to. -/
def auditsGraph : Graph :=
  (audits.resolve .default).1.toOption.getD empty

private theorem auditsGraph_facts :
    (audits.resolve .default).1.isOk = true ∧
      (auditsGraph.interfaces.values.map fun i => (i.qualifiedName, i.attributes.map (·.name))) =
        [("com.acme.Audited", ["title"])] := by
  decide +kernel

private theorem resolve_audits : (audits.resolve .default).1 = .ok auditsGraph :=
  eq_ok_of_isOk auditsGraph_facts.1 empty

/-- Neither the object nor the first interface is a reason to refuse the name, and of the first interface nothing is
left. -/
theorem not_nodup_of_audits :
    (audits.resolve .default).1 = .ok auditsGraph ∧
      ¬ (audits.types.map (·.2.qualified) ++ audits.interfaces.values.map (·.qualifiedName)).Nodup ∧
      ¬ (audits.interfaces.values.map (·.qualifiedName)).Nodup ∧
      (auditsGraph.interfaces.values.map fun i => (i.qualifiedName, i.attributes.map (·.name))) =
        [("com.acme.Audited", ["title"])] :=
  ⟨resolve_audits, by decide, by decide, auditsGraph_facts.2⟩

/-- The object is there, and under its name the second interface. -/
theorem types_of_audits :
    (audits.resolve .default).1 = .ok auditsGraph ∧ auditsGraph.types = [(.object, ⟨"com.acme", "Audited"⟩)] ∧
      ∃ decl flat, lastNamed? "com.acme.Audited" audits.interfaces.values = some decl ∧
        decl.attributes.map (·.name) = ["title"] ∧ auditsGraph.interfaces.find? "com.acme.Audited" = some flat ∧
          flat.Represents audits decl := by
  obtain ⟨htypes, -, hall⟩ := types_of_resolve resolve_audits
  obtain ⟨decl, flat, hlast, hfind, hrepresents⟩ := hall _ List.mem_cons_self
  have hnames : (lastNamed? "com.acme.Audited" audits.interfaces.values).map (fun i => i.attributes.map (·.name)) =
      some ["title"] := by decide
  have hdecl : decl.attributes.map (·.name) = ["title"] := by
    rw [show lastNamed? "com.acme.Audited" audits.interfaces.values = some decl from hlast] at hnames
    exact Option.some.inj hnames
  exact ⟨resolve_audits, htypes, decl, flat, hlast, hdecl, hfind, hrepresents⟩

end Graph

end Metamodel
