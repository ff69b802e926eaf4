import Mathlib.Data.List.Perm.Basic
import Metamodel.Proofs.Graph.Elements

/-!
# Names and what they denote

A graph is built by adding entities, each under a name that no other has, and the index of names grows with it.  So the
index finds an entity just by its qualified name, whatever its kind is (`Built.find?_eq_some_iff`).  What a look-up by
name and kind gives follows from this: what the name denotes among the entities of the kind (`Denotes`), as long as no
entity of another kind has it for its qualified name.
-/

namespace Metamodel.Graph

/-- The graph was built by adding entities one after another, and `index` binds their qualified names.  In between
anything may be done to it that leaves the entities their names and kinds. -/
inductive Built : Graph → NameMap EntityId → Prop
  | empty : Built .empty .empty
  | add {g h : Graph} {index : NameMap EntityId} {e : Entity} {id : EntityId} (hg : Built g index)
      (hadd : g.addEntity? e = some (h, id)) : Built h (index.insert e.qualifiedName id)
  | change {g h : Graph} {index : NameMap EntityId} (hg : Built g index) (houtline : h.outline = g.outline) :
      Built h index

/-- Among the entities of the kind the name denotes `id`: it is its qualified name; or it is the qualified name of none,
and the simple name of `id` alone. -/
structure Denotes (g : Graph) (name : String) (kind : EntityKind) (id : EntityId) : Prop where
  mem : id ∈ g.idsOfKind kind
  named : g.qualifiedName id = name ∨
    (∀ o ∈ g.idsOfKind kind, g.qualifiedName o ≠ name) ∧ (g.entity id).name.simple = name ∧
      ∀ o ∈ g.idsOfKind kind, (g.entity o).name.simple = name → o = id

variable {g : Graph} {index : NameMap EntityId} {name : String} {kind : EntityKind} {id : EntityId}

private theorem of_idNamed? (h : g.idNamed? name = some id) : id < g.entities.size ∧ g.qualifiedName id = name :=
  ⟨g.lt_size_of_idNamed? h, by simpa using List.find?_some ((g.idNamed?_eq name).symm.trans h)⟩

namespace Built

/-- The first entity of a name is the one that the index has. -/
private theorem find?_index (hg : Built g index) (name : String) : index.find? name = g.idNamed? name := by
  induction hg with
  | empty => rfl
  | @add g h index e id hg hadd ih =>
    have hnew := idNamed?_of_addEntity? hadd
    obtain ⟨rfl, rfl⟩ := eq_of_addEntity? hadd
    rw [NameMap.find?_insert, idNamed?_push, ih]
    by_cases hname : name = e.qualifiedName
    · simp [hname, hnew]
    · simp [hname, Ne.symm hname]
  | change _ houtline ih => rw [ih, idNamed?_of_outline_eq houtline]

/-- An entity is the only one of its qualified name. -/
private theorem idNamed?_qualifiedName (hg : Built g index) (hid : id < g.entities.size) :
    g.idNamed? (g.qualifiedName id) = some id := by
  induction hg with
  | empty => cases hid
  | @add g h index e _ hg hadd ih =>
    have hnew := idNamed?_of_addEntity? hadd
    obtain ⟨rfl, rfl⟩ := eq_of_addEntity? hadd
    rw [size_push] at hid
    rw [idNamed?_push, qualifiedName_push]
    split
    · rename_i hlast
      simp [hlast, hnew]
    · rename_i hold
      rw [ih (Nat.lt_of_le_of_ne (Nat.le_of_lt_succ hid) hold), Option.some_or]
  | change _ houtline ih =>
    rw [size_of_outline_eq houtline] at hid
    rw [idNamed?_of_outline_eq houtline, qualifiedName_of_outline_eq houtline, ih hid]

private theorem idNamed?_eq_some_iff (hg : Built g index) :
    g.idNamed? name = some id ↔ id < g.entities.size ∧ g.qualifiedName id = name := by
  refine ⟨of_idNamed?, ?_⟩
  rintro ⟨hid, rfl⟩
  exact hg.idNamed?_qualifiedName hid

/-- The index finds an entity just by its qualified name. -/
theorem find?_eq_some_iff (hg : Built g index) :
    index.find? name = some id ↔ id < g.entities.size ∧ g.qualifiedName id = name := by
  rw [hg.find?_index, hg.idNamed?_eq_some_iff]

end Built

/-! ### Look-up -/

private theorem filter_eq_singleton_iff {ids : List EntityId} (hnodup : ids.Nodup) {q : EntityId → Bool} :
    ids.filter q = [id] ↔ id ∈ ids ∧ q id ∧ ∀ o ∈ ids, q o → o = id := by
  rw [← List.perm_singleton, List.perm_ext_iff_of_nodup (hnodup.filter q) (List.pairwise_singleton _ id)]
  simp only [List.mem_filter, List.mem_singleton]
  constructor
  · intro h
    exact ⟨((h id).2 rfl).1, ((h id).2 rfl).2, fun o ho hq => (h o).1 ⟨ho, hq⟩⟩
  · rintro ⟨hmem, hq, honly⟩ o
    refine ⟨fun ho => honly o ho.1 ho.2, ?_⟩
    rintro rfl
    exact ⟨hmem, hq⟩

private theorem mem_idsOfKind_of_lt (h : id < g.entities.size) : id ∈ g.idsOfKind (g.entity id).kind :=
  g.mem_idsOfKind.2 ⟨h, rfl⟩

/-- A name that is no qualified name is looked up among the simple names of the kind. -/
private theorem lookup_of_unnamed (hnone : g.idNamed? name = none) :
    g.lookup name kind = some id ↔ (g.idsOfKind kind).filter (fun o => (g.entity o).name.simple == name) = [id] := by
  rw [lookup_eq, hnone]
  dsimp only
  split
  · rename_i only honly
    simp [honly]
  · rename_i hmany
    exact ⟨fun h => (by cases h), fun h => absurd h (hmany id)⟩

/-- Such a name denotes what has it alone for its simple name. -/
private theorem denotes_of_unnamed (hnone : ∀ o < g.entities.size, g.qualifiedName o ≠ name) :
    g.Denotes name kind id ↔ (g.idsOfKind kind).filter (fun o => (g.entity o).name.simple == name) = [id] := by
  rw [filter_eq_singleton_iff (g.nodup_idsOfKind kind)]
  simp only [beq_iff_eq]
  constructor
  · rintro ⟨hmem, hsame | ⟨-, hsimple, honly⟩⟩
    · exact absurd hsame (hnone id (g.lt_size_of_mem_idsOfKind hmem))
    · exact ⟨hmem, hsimple, honly⟩
  · rintro ⟨hmem, hsimple, honly⟩
    exact ⟨hmem, .inr ⟨fun o ho => hnone o (g.lt_size_of_mem_idsOfKind ho), hsimple, honly⟩⟩

private theorem lookup_of_named {o : EntityId} (hnamed : g.idNamed? name = some o) :
    g.lookup name kind = some id ↔ id = o ∧ (g.entity o).kind = kind := by
  rw [lookup_eq, hnamed]
  dsimp only
  split
  · rename_i hkind
    simp [hkind, eq_comm]
  · rename_i hkind
    simp [hkind]

/-- The qualified name of an entity denotes this, among those of its kind. -/
private theorem Built.denotes_of_named {o : EntityId} (hg : Built g index) (hnamed : g.idNamed? name = some o) :
    g.Denotes name (g.entity o).kind id ↔ id = o := by
  obtain ⟨ho, hname⟩ := of_idNamed? hnamed
  have hmem := mem_idsOfKind_of_lt ho
  constructor
  · rintro ⟨hid, hsame | ⟨hnone, -⟩⟩
    · have hfound := hg.idNamed?_eq_some_iff.2 ⟨g.lt_size_of_mem_idsOfKind hid, hsame⟩
      exact Option.some.inj (hfound.symm.trans hnamed)
    · exact absurd hname (hnone o hmem)
  · rintro rfl
    exact ⟨hmem, .inl hname⟩

/-- The index of a graph finds its entities by their qualified names, whatever their kinds are.  A look-up gives what
the name denotes among the entities of the kind, unless it is the qualified name of an entity of another kind: then it
gives nothing. -/
theorem lookup_of_built (hg : Built g index) (name : String) (kind : EntityKind) :
    (∀ o, index.find? name = some o ↔ o < g.entities.size ∧ g.qualifiedName o = name) ∧
      ∀ id, g.lookup name kind = some id ↔
        g.Denotes name kind id ∧ ∀ o < g.entities.size, g.qualifiedName o = name → (g.entity o).kind = kind := by
  refine ⟨fun o => hg.find?_eq_some_iff, fun id => ?_⟩
  cases hnamed : g.idNamed? name with
  | some o =>
    obtain ⟨ho, hname⟩ := of_idNamed? hnamed
    rw [lookup_of_named hnamed]
    constructor
    · rintro ⟨hid, rfl⟩
      refine ⟨(hg.denotes_of_named hnamed).2 hid, fun p hp hsame => ?_⟩
      obtain rfl := Option.some.inj ((hg.idNamed?_eq_some_iff.2 ⟨hp, hsame⟩).symm.trans hnamed)
      rfl
    · rintro ⟨hdenotes, hkinds⟩
      obtain rfl := hkinds o ho hname
      exact ⟨(hg.denotes_of_named hnamed).1 hdenotes, rfl⟩
  | none =>
    have hnone : ∀ o < g.entities.size, g.qualifiedName o ≠ name := fun o ho hsame => by
      rw [hg.idNamed?_eq_some_iff.2 ⟨ho, hsame⟩] at hnamed
      cases hnamed
    rw [lookup_of_unnamed hnamed, denotes_of_unnamed hnone]
    exact ⟨fun h => ⟨h, fun o ho hsame => absurd hsame (hnone o ho)⟩, And.left⟩

/-- An enumeration without a package, and an object of the same simple name. -/
def statuses : Graph where
  entities :=
    #[{ name := ⟨"", "Status"⟩, kind := .enumeration }, { id := 1, name := ⟨"com.acme", "Status"⟩, kind := .object }]

/-- Among the objects the name denotes one, but it is also the qualified name of the enumeration. -/
theorem lookup_of_statuses :
    (∃ index, Built statuses index) ∧ statuses.Denotes "Status" .object 1 ∧ statuses.lookup "Status" .object = none := by
  have hfirst : Built { entities := #[statuses.entity 0] } _ := .add (e := statuses.entity 0) .empty rfl
  have hsecond : Built statuses _ := .add (e := statuses.entity 1) hfirst rfl
  exact ⟨⟨_, hsecond⟩, ⟨by decide, .inr (by decide)⟩, by decide⟩

/-- Two objects of one simple name, and an enumeration without a package. -/
def catalog : Graph where
  entities :=
    #[{ name := ⟨"com.acme.a", "Item"⟩, kind := .object }, { id := 1, name := ⟨"com.acme.b", "Item"⟩, kind := .object },
      { id := 2, name := ⟨"", "Status"⟩, kind := .enumeration }]

/-- The simple name denotes neither of the two, and the enumeration is found by what is both of its names. -/
theorem lookup_of_catalog :
    ∃ index, Built catalog index ∧ index.find? "com.acme.b.Item" = some 1 ∧
      catalog.lookup "com.acme.b.Item" .object = some 1 ∧ (∀ id, catalog.lookup "Item" .object ≠ some id) ∧
      catalog.lookup "Status" .enumeration = some 2 := by
  have hfirst : Built { entities := #[catalog.entity 0] } _ := .add (e := catalog.entity 0) .empty rfl
  have hsecond : Built { entities := #[catalog.entity 0, catalog.entity 1] } _ :=
    .add (e := catalog.entity 1) hfirst rfl
  have hbuilt : Built catalog _ := .add (e := catalog.entity 2) hsecond rfl
  have hkinds : ∀ name ∈ ["com.acme.b.Item", "Status"], ∀ o < catalog.entities.size, catalog.qualifiedName o = name →
      (catalog.entity o).kind = if name = "Status" then .enumeration else .object := by decide
  refine ⟨_, hbuilt, ((lookup_of_built hbuilt _ .object).1 1).2 (by decide), ?_, fun id hid => ?_, ?_⟩
  · exact ((lookup_of_built hbuilt _ _).2 1).2 ⟨⟨by decide, .inl (by decide)⟩, hkinds _ (by simp)⟩
  · obtain ⟨⟨hmem, hdenotes⟩, -⟩ := ((lookup_of_built hbuilt _ _).2 id).1 hid
    have hnone : ∀ o ∈ catalog.idsOfKind .object, catalog.qualifiedName o ≠ "Item" ∧
        ¬ ∀ p ∈ catalog.idsOfKind .object, (catalog.entity p).name.simple = "Item" → p = o := by decide
    rcases hdenotes with hsame | ⟨-, -, honly⟩
    · exact (hnone id hmem).1 hsame
    · exact (hnone id hmem).2 honly
  · exact ((lookup_of_built hbuilt _ _).2 2).2 ⟨⟨by decide, .inl (by decide)⟩, hkinds _ (by simp)⟩

end Metamodel.Graph
