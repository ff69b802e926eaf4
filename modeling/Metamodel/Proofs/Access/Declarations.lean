import Metamodel.Graph.OfDeclarations
import Metamodel.Interface.Flatten
import Metamodel.Proofs.Access.Basic

/-!
# Look-ups for declarations and interfaces

Checked forms of the steps from declarations to a graph, and of those that register interfaces.  A declared type is
added before its members, and all else is found by name, so that no index can be out of range whatever the graph is.
-/

namespace Metamodel.Graph.Checked

variable {g : Graph} {id : EntityId}

/-! ### Declarations -/

def addAttributes {α : Type} (g : Graph) (make : α → Option Attribute) (ds : List α) : Option Graph :=
  ds.foldlM (fun g d => do addAttribute g (← make d)) g

def declareEnumeration (g : Graph) (entry : String × EnumerationDeclaration) : Option (Found Graph) :=
  let (key, d) := entry
  let e : Entity :=
    { name := d.name, kind := .enumeration, persistedType := some d.persistedType, members := d.members }
  match g.addEntity? e with
  | none => some (g, [duplicateType key])
  | some (g, _) => some (g, [])

def declareEmbedded (g : Graph) (entry : String × EmbeddedObjectDeclaration) : Option (Found Graph) :=
  let (key, d) := entry
  let nested := d.nested.map fun n => { name := n.name, typeName := n.typeName : NestedValue }
  match g.addEntity? { name := d.name, kind := .embeddedValue, nested := nested } with
  | none => some (g, [duplicateType key])
  | some (g, id) => do return (← addAttributes g (fun a => some (embeddedAttribute id a)) d.attributes, [])

def enumerationAttribute (g : Graph) (id : EntityId) (defaults : MemberDefaults)
    (d : EnumerationAttributeDeclaration) : Option Attribute := do
  let found ← (← lookup g d.enumeration .enumeration).mapM (entity g)
  return .ofEnumeration d.name ((found.bind (·.persistedType)).getD .int) (.ofDeclaration d) id defaults

def addSource (g : Graph) (id : EntityId) (defaults : MemberDefaults) : Option SourceDeclaration → Option Graph
  | none => some g
  | some d => do
    modifyEntity (← addAttribute g (.ofSource d id defaults)) id fun e => { e with source := some g.attributes.size }

def addMembers (g : Graph) (id : EntityId) (defaults : MemberDefaults) (d : ObjectDeclaration) : Option Graph := do
  let g ← addAttributes g (fun a => some (.ofDeclaration a id defaults)) d.attributes
  let g ← addAttributes g (fun a => some (.ofAsOf a id defaults)) d.asOfAttributes
  let g ← addAttributes g (enumerationAttribute g id defaults) d.enumerationAttributes
  let g ← addSource g id defaults d.sourceAttribute
  d.relationships.foldlM (fun g r => addRelationship g (.ofDeclaration r id)) g

def declareObject (config : Config) (s : WithKeys) (entry : String × ObjectDeclaration) : Option (Found WithKeys) :=
  let (key, d) := entry
  let defaults : MemberDefaults :=
    { finalGetters := d.defaultFinalGetters.getD config.defaultFinalGetters, timezone := config.defaultTimezone }
  let e : Entity :=
    { name := d.name
      kind := .object
      defaults := defaults
      access := d.access
      imported := d.imported
      superName := d.superClass
      interfaces := d.interfaces }
  match s.1.addEntity? e with
  | none => some (s, [duplicateType key])
  | some (g, id) => do return ((← addMembers g id defaults d, s.2 ++ [(id, key)]), [])

def ofDeclarations (config : Config) (d : Declarations) : Option (Found WithKeys) := do
  let (g, enumerations) ← gather declareEnumeration empty d.enumerations.entries
  let (g, embedded) ← gather declareEmbedded g d.embeddedObjects.entries
  let (s, objects) ← gather (declareObject config) (g, []) d.objects.entries
  return (s, enumerations ++ embedded ++ objects)

/-! ### Indices of declared types -/

@[simp] theorem size_entities_addAttributes {α : Type} (g : Graph) (make : α → Attribute) (ds : List α) :
    (g.addAttributes make ds).entities.size = g.entities.size :=
  List.foldlRecOn ds _ (motive := fun h : Graph => h.entities.size = g.entities.size) rfl fun h hh d _ =>
    (h.size_entities_addAttribute (make d)).trans hh

@[simp] theorem size_entities_addSource (g : Graph) (id : EntityId) (defaults : MemberDefaults)
    (source : Option SourceDeclaration) : (g.addSource id defaults source).entities.size = g.entities.size := by
  cases source with
  | none => rfl
  | some d => simp [Graph.addSource]

private theorem lt_size_of_addEntity? {h : Graph} {e : Entity} (hadd : g.addEntity? e = some (h, id)) :
    id < h.entities.size := by
  obtain ⟨rfl, rfl⟩ := eq_of_addEntity? hadd
  rw [size_push]
  exact Nat.lt_succ_self _

private theorem addAttributes_eq {α : Type} {make? : α → Option Attribute} {make : α → Attribute} (ds : List α)
    (hmake : ∀ d, make? d = some (make d)) (howner : ∀ d, (make d).owner < g.entities.size) :
    addAttributes g make? ds = some (g.addAttributes make ds) := by
  refine foldlM_eq (fun h => h.entities.size = g.entities.size) (fun h hh d _ => ?_) rfl
  rw [hmake]
  exact ⟨addAttribute_eq (hh ▸ howner d), (h.size_entities_addAttribute _).trans hh⟩

private theorem enumerationAttribute_eq (g : Graph) (id : EntityId) (defaults : MemberDefaults)
    (d : EnumerationAttributeDeclaration) :
    enumerationAttribute g id defaults d = some (g.enumerationAttribute id defaults d) := by
  rw [enumerationAttribute, lookup_eq]
  cases hlookup : g.lookup d.enumeration .enumeration with
  | none => simp [Graph.enumerationAttribute, hlookup]
  | some e =>
    have he := g.lt_size_of_lookup hlookup
    simp [Graph.enumerationAttribute, hlookup, entity_eq he]

private theorem addSource_eq (hid : id < g.entities.size) (defaults : MemberDefaults)
    (source : Option SourceDeclaration) : addSource g id defaults source = some (g.addSource id defaults source) := by
  cases source with
  | none => rfl
  | some d =>
    rw [addSource, addAttribute_eq (by exact hid)]
    exact modifyEntity_eq (by simpa using hid) _

private theorem addMembers_eq (hid : id < g.entities.size) (defaults : MemberDefaults) (d : ObjectDeclaration) :
    addMembers g id defaults d = some (g.addMembers id defaults d) := by
  unfold addMembers Graph.addMembers
  rw [addAttributes_eq d.attributes (fun _ => rfl) fun _ => hid]
  simp only [Option.bind_eq_bind, Option.bind_some]
  rw [addAttributes_eq d.asOfAttributes (fun _ => rfl) fun _ => by
    rw [size_entities_addAttributes]
    exact hid]
  simp only [Option.bind_some]
  rw [addAttributes_eq d.enumerationAttributes (enumerationAttribute_eq _ id defaults) fun _ => by
    rw [size_entities_addAttributes, size_entities_addAttributes]
    exact hid]
  simp only [Option.bind_some]
  rw [addSource_eq (by simpa using hid)]
  refine foldlM_eq (fun h => id < h.entities.size) (fun h hh r _ => ?_) (by simpa using hid)
  exact ⟨addRelationship_eq hh, by simpa using hh⟩

private theorem declareEnumeration_eq (g : Graph) (entry : String × EnumerationDeclaration) :
    declareEnumeration g entry = some (Graph.declareEnumeration g entry) := by
  simp only [declareEnumeration, Graph.declareEnumeration]
  generalize g.addEntity? _ = added
  cases added with
  | none => rfl
  | some added => rfl

private theorem declareEmbedded_eq (g : Graph) (entry : String × EmbeddedObjectDeclaration) :
    declareEmbedded g entry = some (Graph.declareEmbedded g entry) := by
  simp only [declareEmbedded, Graph.declareEmbedded]
  generalize hadd : g.addEntity? _ = added
  cases added with
  | none => rfl
  | some added =>
    dsimp only
    rw [addAttributes_eq _ (fun _ => rfl) fun _ => lt_size_of_addEntity? hadd]
    rfl

private theorem declareObject_eq (config : Config) (s : WithKeys) (entry : String × ObjectDeclaration) :
    declareObject config s entry = some (Graph.declareObject config s entry) := by
  simp only [declareObject, Graph.declareObject]
  generalize hadd : s.1.addEntity? _ = added
  cases added with
  | none => rfl
  | some added =>
    dsimp only
    rw [addMembers_eq (lt_size_of_addEntity? hadd)]
    rfl

theorem ofDeclarations_eq (config : Config) (d : Declarations) :
    ofDeclarations config d = some (Graph.ofDeclarations config d) := by
  simp only [ofDeclarations, Graph.ofDeclarations, gather_eq_of_forall declareEnumeration_eq,
    gather_eq_of_forall declareEmbedded_eq, gather_eq_of_forall (declareObject_eq config), Option.bind_eq_bind,
    Option.bind_some]
  rfl

/-! ### Interfaces -/

def withRelationship (d : Declarations) (g : Graph) (declaredBy : String) (i : Interface)
    (r : InterfaceRelationshipDeclaration) : Option (Found Interface) :=
  let own (message : String) := if declaredBy = i.qualifiedName then [i.problem r.name message] else []
  match Cardinality.ofKey r.cardinality with
  | .error e => some (i, own e.message)
  | .ok cardinality => do
    let object ← (← lookup g r.relatedObject .object).mapM (qualifiedName g)
    let related := object.or ((d.interfaceNamed? r.relatedObject).map (·.qualifiedName))
    match related with
    | none => return (i, own ("related object '" ++ r.relatedObject ++ "' of relationship '" ++ r.name ++
        "' is neither an object nor an interface"))
    | some related =>
      match i.relationships.find? (·.name == r.name) with
      | none => return ({ i with relationships := i.relationships ++ [⟨r.name, related, cardinality⟩] }, [])
      | some b =>
        if b.cardinality = cardinality then return (i, [])
        else return (i, [i.problem r.name ("relationship '" ++ r.name ++ "' is " ++ cardinality.key ++ " in " ++
          declaredBy ++ " but " ++ b.cardinality.key ++ " in a super interface")])

def withMembersOf (d : Declarations) (g : Graph) (i : Interface) (source : InterfaceDeclaration) :
    Option (Found Interface) :=
  let declaredBy := source.qualifiedName
  let attributes := (Metamodel.gather (Interface.withAttribute declaredBy) i source.attributes).andThen
    (Metamodel.gather (Interface.withAsOf declaredBy) · source.asOfAttributes)
  andThen (some attributes) (gather (withRelationship d g declaredBy) · source.relationships)

def flatten (d : Declarations) (g : Graph) (decl : InterfaceDeclaration) : Option (Found Interface) :=
  let above := d.superInterfacesOf decl
  gather (withMembersOf d g) { name := decl.name, superInterfaces := above.map (·.qualifiedName) } (decl :: above)

def registerInterface (d : Declarations) (cyclic : List String) (g : Graph)
    (entry : String × InterfaceDeclaration) : Option (Found Graph) :=
  let (key, decl) := entry
  if cyclic.contains key || decl.superInterfaces.any fun s => (d.interfaceNamed? s).isNone then some (g, [])
  else do
    match ← flatten d g decl with
    | (i, []) => return (g.addInterface i, [])
    | (_, issues) => return (g, issues)

def registerInterfaces (d : Declarations) (g : Graph) : Option (Found Graph) := do
  let search := d.cyclicInterfaces
  let (g, issues) ← gather (registerInterface d search.cyclic) g d.interfaces.entries
  return (g, search.issues ++ issues)

private theorem withRelationship_eq (d : Declarations) (g : Graph) (declaredBy : String) (i : Interface)
    (r : InterfaceRelationshipDeclaration) :
    withRelationship d g declaredBy i r = some (i.withRelationship d g declaredBy r) := by
  have hobject : (g.lookup r.relatedObject .object).mapM (qualifiedName g) =
      some ((g.lookup r.relatedObject .object).map g.qualifiedName) :=
    optionMapM_eq fun _ hid => qualifiedName_eq (g.lt_size_of_lookup hid)
  cases hkey : Cardinality.ofKey r.cardinality with
  | error e => simp only [withRelationship, Interface.withRelationship, hkey]
  | ok cardinality =>
    simp only [withRelationship, Interface.withRelationship, hkey, lookup_eq, hobject, Option.bind_eq_bind,
      Option.bind_some]
    cases ((g.lookup r.relatedObject .object).map g.qualifiedName).or
        ((d.interfaceNamed? r.relatedObject).map (·.qualifiedName)) with
    | none => rfl
    | some related =>
      cases i.relationships.find? (·.name == r.name) with
      | none => rfl
      | some b =>
        dsimp only
        split <;> rfl

private theorem withMembersOf_eq (d : Declarations) (g : Graph) (i : Interface) (source : InterfaceDeclaration) :
    withMembersOf d g i source = some (i.withMembersOf d g source) := by
  unfold withMembersOf Interface.withMembersOf
  exact andThen_eq rfl (gather_eq_of_forall (withRelationship_eq d g _) _ _)

private theorem flatten_eq (d : Declarations) (g : Graph) (decl : InterfaceDeclaration) :
    flatten d g decl = some (Interface.flatten d g decl) :=
  gather_eq_of_forall (withMembersOf_eq d g) _ _

private theorem registerInterface_eq (d : Declarations) (cyclic : List String) (g : Graph)
    (entry : String × InterfaceDeclaration) :
    registerInterface d cyclic g entry = some (g.registerInterface d cyclic entry) := by
  unfold registerInterface Graph.registerInterface
  dsimp only
  split
  · rfl
  · rw [flatten_eq]
    rcases Interface.flatten d g entry.2 with ⟨i, _ | ⟨x, rest⟩⟩ <;> rfl

theorem registerInterfaces_eq (d : Declarations) (g : Graph) :
    registerInterfaces d g = some (g.registerInterfaces d) := by
  simp only [registerInterfaces, Graph.registerInterfaces,
    gather_eq_of_forall (registerInterface_eq d d.cyclicInterfaces.cyclic), Option.bind_eq_bind, Option.bind_some]
  rfl

end Metamodel.Graph.Checked
