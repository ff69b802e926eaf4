import Metamodel.Hierarchy.Inheritance
import Metamodel.Proofs.Graph.Soundness

/-!
# Checked look-ups

A graph answers for every index, with a default beyond the end.  A *checked* look-up has no answer there, and a checked
change has no outcome if what it changes is not there.  A checked step of resolution is made of checked look-ups and
changes alone: it has an outcome only if every index that it uses is in range, and the outcome is then that of the step
itself.  Here are the look-ups and changes, and steps taken one after another.
-/

namespace Metamodel.Graph.Checked

variable {α β σ : Type}

/-! ### Steps without failure -/

section Lists

variable {as : List α}

theorem mapM_eq {f? : α → Option β} {f : α → β} (h : ∀ a ∈ as, f? a = some (f a)) : as.mapM f? = some (as.map f) := by
  induction as with
  | nil => rfl
  | cons a as ih =>
    rw [List.mapM_cons, h a List.mem_cons_self, ih fun b hb => h b (List.mem_cons_of_mem _ hb)]
    rfl

def flatMap (f : α → Option (List β)) (as : List α) : Option (List β) := do
  return (← as.mapM f).flatten

theorem flatMap_eq {f? : α → Option (List β)} {f : α → List β} (h : ∀ a ∈ as, f? a = some (f a)) :
    flatMap f? as = some (as.flatMap f) := by
  rw [flatMap, mapM_eq h]
  rfl

def filterMap (f : α → Option (Option β)) (as : List α) : Option (List β) := do
  return (← as.mapM f).filterMap id

theorem filterMap_eq {f? : α → Option (Option β)} {f : α → Option β} (h : ∀ a ∈ as, f? a = some (f a)) :
    filterMap f? as = some (as.filterMap f) := by
  rw [filterMap, mapM_eq h]
  exact congrArg some (List.filterMap_map ..)

theorem optionMapM_eq {f? : α → Option β} {f : α → β} {x : Option α} (h : ∀ a, x = some a → f? a = some (f a)) :
    x.mapM f? = some (x.map f) := by
  cases x with
  | none => rfl
  | some a =>
    show some <$> f? a = _
    rw [h a rfl]
    rfl

private theorem findM?_eq {p? : α → Option Bool} {p : α → Bool} (h : ∀ a ∈ as, p? a = some (p a)) :
    as.findM? p? = some (as.find? p) := by
  induction as with
  | nil => rfl
  | cons a as ih =>
    rw [List.findM?, List.find?, h a List.mem_cons_self, ih fun b hb => h b (List.mem_cons_of_mem _ hb)]
    cases p a <;> rfl

/-- Steps that keep `p`, each with an outcome wherever `p` holds. -/
theorem foldlM_eq (p : σ → Prop) {step? : σ → α → Option σ} {step : σ → α → σ}
    (hstep : ∀ s, p s → ∀ a ∈ as, step? s a = some (step s a) ∧ p (step s a)) {s : σ} (hs : p s) :
    as.foldlM step? s = some (as.foldl step s) := by
  induction as generalizing s with
  | nil => rfl
  | cons a as ih =>
    obtain ⟨hfirst, hkept⟩ := hstep s hs a List.mem_cons_self
    rw [List.foldlM_cons, List.foldl_cons, hfirst]
    exact ih (fun t ht b hb => hstep t ht b (List.mem_cons_of_mem _ hb)) hkept

def gather (step : σ → α → Option (Found σ)) : σ → List α → Option (Found σ)
  | s, [] => some (s, [])
  | s, a :: as => do
    let (s, here) ← step s a
    let (s, later) ← gather step s as
    return (s, here ++ later)

theorem gather_eq (p : σ → Prop) {step? : σ → α → Option (Found σ)} {step : σ → α → Found σ}
    (hstep : ∀ s, p s → ∀ a ∈ as, step? s a = some (step s a) ∧ p (step s a).1) {s : σ} (hs : p s) :
    gather step? s as = some (Metamodel.gather step s as) := by
  induction as generalizing s with
  | nil => rfl
  | cons a as ih =>
    obtain ⟨hfirst, hkept⟩ := hstep s hs a List.mem_cons_self
    have hlater := ih (fun t ht b hb => hstep t ht b (List.mem_cons_of_mem _ hb)) hkept
    simp only [gather, Metamodel.gather, hfirst, hlater, Option.bind_eq_bind, Option.bind_some]
    rfl

/-- Steps that always have an outcome. -/
theorem gather_eq_of_forall {step? : σ → α → Option (Found σ)} {step : σ → α → Found σ}
    (h : ∀ s a, step? s a = some (step s a)) (s : σ) (as : List α) :
    gather step? s as = some (Metamodel.gather step s as) :=
  gather_eq (fun _ => True) (fun s _ a _ => ⟨h s a, trivial⟩) trivial

def andThen (x : Option (Found σ)) (next : σ → Option (Found σ)) : Option (Found σ) := do
  let (s, here) ← x
  let (s, later) ← next s
  return (s, here ++ later)

theorem andThen_eq {x? : Option (Found σ)} {x : Found σ} {next? : σ → Option (Found σ)} {next : σ → Found σ}
    (hx : x? = some x) (hnext : next? x.1 = some (next x.1)) : andThen x? next? = some (x.andThen next) := by
  simp only [andThen, hx, hnext, Option.bind_eq_bind, Option.bind_some]
  rfl

end Lists

/-! ### Look-ups -/

def entity (g : Graph) (id : EntityId) : Option Entity :=
  g.entities[id]?

def attributeAt (g : Graph) (id : AttributeId) : Option Attribute :=
  g.attributes[id]?

def relationshipAt (g : Graph) (id : RelationshipId) : Option Relationship :=
  g.relationships[id]?

def qualifiedName (g : Graph) (id : EntityId) : Option String := do
  return (← entity g id).qualifiedName

def stateOf (g : Graph) (id : EntityId) : Option EntityState := do
  return (← entity g id).state

def isFailed (g : Graph) (id : EntityId) : Option Bool := do
  return (← entity g id).isFailed

def attributesOf (g : Graph) (id : EntityId) : Option (List Attribute) := do
  (← entity g id).attributes.mapM (attributeAt g)

def relationshipsOf (g : Graph) (id : EntityId) : Option (List Relationship) := do
  (← entity g id).relationships.mapM (relationshipAt g)

def attributeNamed? (g : Graph) (id : EntityId) (name : String) : Option (Option AttributeId) := do
  (← entity g id).attributes.findM? fun a => do return (← attributeAt g a).name == name

def relationshipNamed? (g : Graph) (id : EntityId) (name : String) : Option (Option RelationshipId) := do
  (← entity g id).relationships.findM? fun r => do return (← relationshipAt g r).name == name

def hasMember (g : Graph) (id : EntityId) (name : String) : Option Bool := do
  return (← attributeNamed? g id name).isSome || (← relationshipNamed? g id name).isSome

/-- Only what has the qualified name is read by its index. -/
def lookup (g : Graph) (name : String) (kind : EntityKind) : Option (Option EntityId) :=
  match g.idNamed? name with
  | some id => do return if (← entity g id).kind = kind then some id else none
  | none =>
    match g.entities.toList.filter fun e => e.kind == kind && e.name.simple == name with
    | [e] => some (some e.id)
    | _ => some none

/-- The name of the first entity on a path, and the names of all. -/
def namesAlong (g : Graph) (path : List EntityId) : Option (String × List String) := do
  let names ← path.mapM (qualifiedName g)
  return (← names[0]?, names)

/-! ### Changes -/

def modifyEntity (g : Graph) (id : EntityId) (f : Entity → Entity) : Option Graph :=
  if id < g.entities.size then some (g.modifyEntity id f) else none

def modifyAttribute (g : Graph) (id : AttributeId) (f : Attribute → Attribute) : Option Graph :=
  if id < g.attributes.size then some (g.modifyAttribute id f) else none

def modifyRelationship (g : Graph) (id : RelationshipId) (f : Relationship → Relationship) : Option Graph :=
  if id < g.relationships.size then some (g.modifyRelationship id f) else none

def setState (g : Graph) (id : EntityId) (state : EntityState) : Option Graph :=
  modifyEntity g id fun e => { e with state := state }

def setStates (g : Graph) (ids : List EntityId) (state : EntityState) : Option Graph :=
  ids.foldlM (fun g id => setState g id state) g

/-- The list that the attribute goes to is that of its owner. -/
def addAttribute (g : Graph) (a : Attribute) : Option Graph :=
  if a.owner < g.entities.size then some (g.addAttribute a) else none

def addRelationship (g : Graph) (r : Relationship) : Option Graph :=
  if r.owner < g.entities.size then some (g.addRelationship r) else none

/-! ### Indices in range -/

variable {g : Graph} {id : EntityId}

section Reading

theorem entity_eq (hid : id < g.entities.size) : entity g id = some (g.entity id) := by
  simp [entity, Graph.entity, hid]

theorem attributeAt_eq {a : AttributeId} (ha : a < g.attributes.size) : attributeAt g a = some (g.attributeAt a) := by
  simp [attributeAt, Graph.attributeAt, ha]

theorem relationshipAt_eq {r : RelationshipId} (hr : r < g.relationships.size) :
    relationshipAt g r = some (g.relationshipAt r) := by
  simp [relationshipAt, Graph.relationshipAt, hr]

theorem qualifiedName_eq (hid : id < g.entities.size) : qualifiedName g id = some (g.qualifiedName id) := by
  rw [qualifiedName, entity_eq hid]
  rfl

theorem stateOf_eq (hid : id < g.entities.size) : stateOf g id = some (g.stateOf id) := by
  rw [stateOf, entity_eq hid]
  rfl

theorem isFailed_eq (hid : id < g.entities.size) : isFailed g id = some (g.isFailed id) := by
  rw [isFailed, entity_eq hid]
  rfl

variable (hg : g.Sound) (hid : id < g.entities.size)

include hg hid

theorem attributesOf_eq : attributesOf g id = some (g.attributesOf id) := by
  rw [attributesOf, entity_eq hid]
  exact mapM_eq fun a ha => attributeAt_eq (hg.attribute_owned id a ha).1

theorem relationshipsOf_eq : relationshipsOf g id = some (g.relationshipsOf id) := by
  rw [relationshipsOf, entity_eq hid]
  exact mapM_eq fun r hr => relationshipAt_eq (hg.relationship_owned id r hr).1

theorem attributeNamed?_eq (name : String) : attributeNamed? g id name = some (g.attributeNamed? id name) := by
  rw [attributeNamed?, entity_eq hid]
  refine findM?_eq fun a ha => ?_
  rw [attributeAt_eq (hg.attribute_owned id a ha).1]
  rfl

theorem relationshipNamed?_eq (name : String) :
    relationshipNamed? g id name = some (g.relationshipNamed? id name) := by
  rw [relationshipNamed?, entity_eq hid]
  refine findM?_eq fun r hr => ?_
  rw [relationshipAt_eq (hg.relationship_owned id r hr).1]
  rfl

theorem hasMember_eq (name : String) : hasMember g id name = some (g.hasMember id name) := by
  rw [hasMember, attributeNamed?_eq hg hid, relationshipNamed?_eq hg hid]
  rfl

end Reading

/-- Names lead to indices in range. -/
theorem lookup_eq (name : String) (kind : EntityKind) : lookup g name kind = some (g.lookup name kind) := by
  unfold lookup Graph.lookup
  cases hnamed : g.idNamed? name with
  | some id =>
    simp only [entity_eq (g.lt_size_of_idNamed? hnamed)]
    rfl
  | none => rcases g.entities.toList.filter _ with _ | ⟨e, _ | ⟨f, rest⟩⟩ <;> rfl

theorem mem_of_mem_dropWhile_ne {path : List EntityId} {o : EntityId} (ho : o ∈ path.dropWhile (· != id)) : o ∈ path :=
  (List.dropWhile_sublist _).subset ho

/-- A path that is cut at an entity, and then the entity, starts with the entity. -/
private theorem head?_dropWhile_ne (path : List EntityId) (id : EntityId) :
    (path.dropWhile (· != id) ++ [id]).head? = some id := by
  induction path with
  | nil => rfl
  | cons p path ih =>
    rw [List.dropWhile_cons]
    split
    · exact ih
    · rename_i h
      simp only [bne_iff_ne, ne_eq, Decidable.not_not] at h
      rw [h]
      rfl

theorem namesAlong_eq {path : List EntityId} (hpath : ∀ o ∈ path, o < g.entities.size) (hid : id < g.entities.size) :
    namesAlong g (path.dropWhile (· != id) ++ [id]) =
      some (g.qualifiedName id, (path.dropWhile (· != id) ++ [id]).map g.qualifiedName) := by
  have hnames : (path.dropWhile (· != id) ++ [id]).mapM (qualifiedName g) =
      some ((path.dropWhile (· != id) ++ [id]).map g.qualifiedName) := by
    refine mapM_eq fun o ho => ?_
    rcases List.mem_append.1 ho with ho | ho
    · exact qualifiedName_eq (hpath o (mem_of_mem_dropWhile_ne ho))
    · exact qualifiedName_eq (List.mem_singleton.1 ho ▸ hid)
  have hfirst : ((path.dropWhile (· != id) ++ [id]).map g.qualifiedName)[0]? = some (g.qualifiedName id) := by
    rw [← List.head?_eq_getElem?, List.head?_map, head?_dropWhile_ne]
    rfl
  simp only [namesAlong, hnames, hfirst, Option.bind_eq_bind, Option.bind_some]
  rfl

section Changing

theorem modifyEntity_eq (hid : id < g.entities.size) (f : Entity → Entity) :
    modifyEntity g id f = some (g.modifyEntity id f) :=
  if_pos hid

theorem modifyAttribute_eq {a : AttributeId} (ha : a < g.attributes.size) (f : Attribute → Attribute) :
    modifyAttribute g a f = some (g.modifyAttribute a f) :=
  if_pos ha

theorem modifyRelationship_eq {r : RelationshipId} (hr : r < g.relationships.size) (f : Relationship → Relationship) :
    modifyRelationship g r f = some (g.modifyRelationship r f) :=
  if_pos hr

theorem setState_eq (hid : id < g.entities.size) (state : EntityState) :
    setState g id state = some (g.setState id state) :=
  modifyEntity_eq hid _

theorem setStates_eq {ids : List EntityId} (hids : ∀ id ∈ ids, id < g.entities.size) (state : EntityState) :
    setStates g ids state = some (g.setStates ids state) := by
  refine foldlM_eq (fun h => h.entities.size = g.entities.size) (fun h hh id hid => ?_) rfl
  exact ⟨setState_eq (hh ▸ hids id hid) state, (h.size_modifyEntity id _).trans hh⟩

theorem addAttribute_eq {a : Attribute} (howner : a.owner < g.entities.size) :
    addAttribute g a = some (g.addAttribute a) :=
  if_pos howner

theorem addRelationship_eq {r : Relationship} (howner : r.owner < g.entities.size) :
    addRelationship g r = some (g.addRelationship r) :=
  if_pos howner

end Changing

end Metamodel.Graph.Checked
