import Mathlib.Data.List.Forall2
import Mathlib.Data.List.Nodup
import Metamodel.Embedded.Expansion
import Metamodel.Proofs.Graph.Elements
import Metamodel.Proofs.Issue.Clean

/-!
# The columns of embedded values

The mappings in the declarations of an object, outermost first, are those of a tree (`usesOf`), and the expansion goes
through it in lockstep with the nesting of the values' types.  It appends attributes to the object, one for each of some
of the mappings, in their order (`Expands`): a mapping is passed over only if there is an error, or its column is there
already.  Each step appends under a new name and a new column, so in the end no two attributes collide, whatever values
they are from.
-/

namespace Metamodel.Graph

/-! ### The mappings of a declaration -/

/-- A mapping in a declaration, the names of the values that lead to it, and the type of its value if that is known. -/
structure MappingUse where
  path : List String
  value : Option EntityId
  mapping : ColumnMapping

mutual

/-- The mappings of a declared value, and then those of the values nested in it.  What is nested in a value under a name
is of the type `target`. -/
def usesOf (target : EntityId → String → Option EntityId) (path : List String) (value : Option EntityId) :
    EmbeddedValueDeclaration → List MappingUse
  | .mk name _ mappings nested =>
    mappings.map (⟨path ++ [name], value, ·⟩) ++ usesBelow target (path ++ [name]) value nested

def usesBelow (target : EntityId → String → Option EntityId) (path : List String) (value : Option EntityId) :
    List EmbeddedValueDeclaration → List MappingUse
  | [] => []
  | d :: ds => usesOf target path (value.bind (target · d.name)) d ++ usesBelow target path value ds

end

/-- The mappings of all values that an object declares. -/
def declaredUses (g : Graph) (ds : List EmbeddedValueDeclaration) : List MappingUse :=
  ds.flatMap fun d => usesOf g.nestedTarget? [] (d.typeName.bind (g.lookup · .embeddedValue)) d

/-- The attribute is made for the mapping, and takes after the attribute that the mapping names. -/
structure MapsTo (g : Graph) (u : MappingUse) (a : Attribute) : Prop where
  mapped : a.isMapped = true
  name : a.name = u.mapping.underlying.getD (nestedName u.path ++ Text.firstUpper u.mapping.member)
  column : a.columnName = some u.mapping.columnName
  leaf : ∃ value leaf, u.value = some value ∧
    (g.attributesOf value).find? (·.name == u.mapping.member) = some leaf ∧
      a.dataType = leaf.dataType ∧ a.isNullable = leaf.isNullable ∧ a.maxLength = leaf.maxLength

variable {g h k : Graph} {owner o : EntityId} {a : Attribute} {added more : List Attribute}

/-! ### Reading members -/

private theorem find?_attributesOf (g : Graph) (o : EntityId) (name : String) :
    (g.attributesOf o).find? (·.name == name) = (g.attributeNamed? o name).map g.attributeAt := by
  rw [attributesOf, List.find?_map]
  rfl

/-- What is no member's name is the name of no attribute and of no relationship. -/
private theorem hasMember_eq_false_iff {name : String} :
    g.hasMember o name = false ↔
      name ∉ (g.attributesOf o).map (·.name) ∧ name ∉ (g.relationshipsOf o).map (·.name) := by
  simp [hasMember, attributeNamed?, relationshipNamed?, attributesOf, relationshipsOf]

/-! ### More attributes -/

/-- The object is in the graph, and so is every attribute that is listed. -/
structure Listed (g : Graph) (owner : EntityId) : Prop where
  owner_lt : owner < g.entities.size
  attribute_lt : ∀ o, ∀ a ∈ (g.entity o).attributes, a < g.attributes.size

/-- From `g` to `h` the object has got more attributes, and nothing else has changed that expansion reads. -/
structure Adds (owner : EntityId) (g h : Graph) (added : List Attribute) : Prop where
  listed : h.Listed owner
  outline : h.outline = g.outline
  nestedTarget : h.nestedTarget? = g.nestedTarget?
  relationshipsOf : ∀ o, h.relationshipsOf o = g.relationshipsOf o
  attributesOf : ∀ o, h.attributesOf o = g.attributesOf o ++ if o = owner then added else []

namespace Adds

theorem refl (hg : g.Listed owner) : Adds owner g g [] :=
  ⟨hg, rfl, rfl, fun _ => rfl, fun _ => by simp⟩

theorem trans (first : Adds owner g h added) (second : Adds owner h k more) : Adds owner g k (added ++ more) where
  listed := second.listed
  outline := second.outline.trans first.outline
  nestedTarget := second.nestedTarget.trans first.nestedTarget
  relationshipsOf o := (second.relationshipsOf o).trans (first.relationshipsOf o)
  attributesOf o := by
    rw [second.attributesOf, first.attributesOf, List.append_assoc]
    split <;> rfl

private theorem attributesOf_owner (hh : Adds owner g h added) :
    h.attributesOf owner = g.attributesOf owner ++ added := by
  rw [hh.attributesOf, if_pos rfl]

/-- The attribute that a name denotes is still the same. -/
private theorem find?_attributesOf (hh : Adds owner g h added) {name : String}
    (ha : (g.attributesOf o).find? (·.name == name) = some a) :
    (h.attributesOf o).find? (·.name == name) = some a := by
  rw [hh.attributesOf, List.find?_append, ha, Option.some_or]

private theorem mapsTo {u : MappingUse} (hh : Adds owner g h added) (hu : g.MapsTo u a) : h.MapsTo u a where
  mapped := hu.mapped
  name := hu.name
  column := hu.column
  leaf := by
    obtain ⟨value, leaf, hvalue, hleaf, hsame⟩ := hu.leaf
    exact ⟨value, leaf, hvalue, hh.find?_attributesOf hleaf, hsame⟩

theorem addAttribute (hg : g.Listed owner) (hown : a.owner = owner) : Adds owner g (g.addAttribute a) [a] := by
  have hentity := g.entity_addAttribute a
  have hlists : ∀ o, ((g.addAttribute a).entity o).attributes =
      (g.entity o).attributes ++ if o = owner then [g.attributes.size] else [] := by
    intro o
    rw [hentity, hown]
    by_cases h : o = owner
    · rw [if_pos ⟨h.symm, h ▸ hg.owner_lt⟩, if_pos h]
    · rw [if_neg fun e => h e.1.symm, if_neg h, List.append_nil]
  refine ⟨⟨?_, fun o b hb => ?_⟩, outline_addAttribute .., ?_, fun o => ?_, fun o => ?_⟩
  · rw [size_entities_addAttribute]
    exact hg.owner_lt
  · rw [size_attributes_addAttribute]
    rw [hlists] at hb
    rcases List.mem_append.1 hb with hold | hnew
    · exact Nat.lt_succ_of_lt (hg.attribute_lt o b hold)
    · split at hnew
      · rw [List.mem_singleton.1 hnew]
        exact Nat.lt_succ_self _
      · cases hnew
  · funext value name
    rw [nestedTarget?, hentity]
    split <;> rfl
  · rw [Graph.relationshipsOf, hentity]
    split <;> rfl
  · have hold : (g.entity o).attributes.map (g.addAttribute a).attributeAt = g.attributesOf o :=
      List.map_congr_left fun b hb => by
        rw [attributeAt_addAttribute, if_neg (Nat.ne_of_lt (hg.attribute_lt o b hb))]
    rw [Graph.attributesOf, hlists, List.map_append, hold]
    split
    · rw [List.map_singleton, attributeAt_addAttribute, if_pos rfl]
    · rfl

end Adds

/-! ### Expansion -/

/-- What expansion does for mappings: for some of them it adds an attribute, of a new name and for a new column, and if
there is no error the columns of all are there. -/
structure Expands (owner : EntityId) (g : Graph) (uses taken : List MappingUse) (added : List Attribute)
    (x : Found Graph) : Prop where
  adds : Adds owner g x.1 added
  inOrder : taken.Sublist uses
  mapsTo : List.Forall₂ x.1.MapsTo taken added
  names : (added.map (·.name)).Nodup
  newName : ∀ a ∈ added, a.name ∉ (g.attributesOf owner).map (·.name) ∧ a.name ∉ (g.relationshipsOf owner).map (·.name)
  columns : (added.map (·.columnName)).Nodup
  newColumn : ∀ a ∈ added, a.columnName ∉ (g.attributesOf owner).map (·.columnName)
  complete : Clean x.2 → ∀ u ∈ uses, some u.mapping.columnName ∈ (x.1.attributesOf owner).map (·.columnName)

def Expansion (owner : EntityId) (g : Graph) (uses : List MappingUse) (x : Found Graph) : Prop :=
  ∃ taken added, Expands owner g uses taken added x

variable {uses later taken : List MappingUse} {x : Found Graph}

/-- A key is new twice over if it is new among the old ones and those of the first part. -/
private theorem nodup_map_append {κ : Type} {key : Attribute → κ} {old : List Attribute}
    (hfirst : (added.map key).Nodup) (hsecond : (more.map key).Nodup)
    (hnew : ∀ a ∈ more, key a ∉ (old ++ added).map key) : ((added ++ more).map key).Nodup := by
  rw [List.map_append]
  refine List.nodup_append.2 ⟨hfirst, hsecond, fun k hk k' hk' heq => ?_⟩
  obtain ⟨a, ha, rfl⟩ := List.mem_map.1 hk'
  refine hnew a ha ?_
  rw [List.map_append]
  exact List.mem_append_right _ (heq ▸ hk)

namespace Expansion

/-- Where nothing is added, the columns have to be there unless there is an error. -/
theorem unchanged (hg : g.Listed owner) {issues : List Issue}
    (complete : Clean issues → ∀ u ∈ uses, some u.mapping.columnName ∈ (g.attributesOf owner).map (·.columnName)) :
    Expansion owner g uses (g, issues) :=
  ⟨[], [], .refl hg, List.nil_sublist _, .nil, List.nodup_nil, fun _ ha => absurd ha List.not_mem_nil, List.nodup_nil,
    fun _ ha => absurd ha List.not_mem_nil, complete⟩

theorem nil (hg : g.Listed owner) : Expansion owner g [] (g, []) :=
  unchanged hg fun _ _ hu => absurd hu List.not_mem_nil

theorem error (hg : g.Listed owner) (uses : List MappingUse) {i : Issue} (hi : i.isError = true) :
    Expansion owner g uses (g, [i]) :=
  unchanged hg fun clean => absurd clean (not_clean_singleton hi)

/-- An attribute is added for a mapping. -/
theorem single (hg : g.Listed owner) {u : MappingUse} (hown : a.owner = owner) (hu : g.MapsTo u a)
    (hname : g.hasMember owner a.name = false) (hcolumn : a.columnName ∉ (g.attributesOf owner).map (·.columnName)) :
    Expansion owner g [u] (g.addAttribute a, []) := by
  have hadds := Adds.addAttribute hg hown
  refine ⟨[u], [a], hadds, List.Sublist.refl _, .cons (hadds.mapsTo hu) .nil, List.nodup_singleton _, ?_,
    List.nodup_singleton _, ?_, fun _ v hv => ?_⟩
  · exact List.forall_mem_singleton.2 (hasMember_eq_false_iff.1 hname)
  · exact List.forall_mem_singleton.2 hcolumn
  · rw [List.mem_singleton.1 hv, hadds.attributesOf_owner, ← hu.column]
    exact List.mem_map_of_mem (by simp)

/-- The expansion for more mappings follows. -/
theorem andThen (hx : Expansion owner g uses x) (next : Graph → Found Graph)
    (hnext : ∀ added, Adds owner g x.1 added → Expansion owner x.1 later (next x.1)) :
    Expansion owner g (uses ++ later) (x.andThen next) := by
  obtain ⟨taken, added, hx⟩ := hx
  obtain ⟨taken', more, hy⟩ := hnext added hx.adds
  have hold := hx.adds.attributesOf_owner
  have hnames := hy.newName
  have hcolumns := hy.newColumn
  simp only [hold, hx.adds.relationshipsOf] at hnames hcolumns
  rw [Found.andThen_eq]
  refine ⟨taken ++ taken', added ++ more, hx.adds.trans hy.adds, hx.inOrder.append hy.inOrder, ?_, ?_, ?_, ?_, ?_, ?_⟩
  · exact List.rel_append (hx.mapsTo.imp fun _ _ hu => hy.adds.mapsTo hu) hy.mapsTo
  · exact nodup_map_append hx.names hy.names fun a ha => (hnames a ha).1
  · refine List.forall_mem_append.2 ⟨hx.newName, fun a ha => ⟨fun hmem => (hnames a ha).1 ?_, (hnames a ha).2⟩⟩
    rw [List.map_append]
    exact List.mem_append_left _ hmem
  · exact nodup_map_append hx.columns hy.columns hcolumns
  · refine List.forall_mem_append.2 ⟨hx.newColumn, fun a ha hmem => hcolumns a ha ?_⟩
    rw [List.map_append]
    exact List.mem_append_left _ hmem
  · intro clean
    obtain ⟨hhere, hlater⟩ := clean_append.1 clean
    refine List.forall_mem_append.2 ⟨fun u hu => ?_, hy.complete hlater⟩
    rw [hy.adds.attributesOf_owner, List.map_append]
    exact List.mem_append_left _ (hx.complete hhere u hu)

/-- A step for one mapping after the other. -/
theorem gather {α : Type} {step : Graph → α → Found Graph} {use : α → List MappingUse} {as : List α}
    (hstep : ∀ h added, Adds owner g h added → ∀ a ∈ as, Expansion owner h (use a) (step h a)) (hg : g.Listed owner) :
    Expansion owner g (as.flatMap use) (Metamodel.gather step g as) := by
  induction as generalizing g with
  | nil => exact .nil hg
  | cons a as ih =>
    have hfirst := hstep g [] (.refl hg) a List.mem_cons_self
    have hrest : ∀ added, Adds owner g (step g a).1 added →
        Expansion owner (step g a).1 (as.flatMap use) (Metamodel.gather step (step g a).1 as) := fun added hadds =>
      ih (fun h more hh b hb => hstep h (added ++ more) (hadds.trans hh) b (List.mem_cons_of_mem _ hb)) hadds.listed
    exact hfirst.andThen (fun h => Metamodel.gather step h as) hrest

end Expansion

/-- A mapping adds its attribute, unless there is an error or the column is there already. -/
private theorem expansion_mapColumn (hg : g.Listed owner) (path : List String) (value : EntityId) (m : ColumnMapping) :
    Expansion owner g [⟨path, some value, m⟩] (mapColumn owner value (nestedName path) g m) := by
  unfold mapColumn
  dsimp only
  cases hleaf : g.attributeNamed? value m.member with
  | none => exact .error hg _ rfl
  | some leaf =>
    dsimp only
    split
    · rename_i hthere
      refine .unchanged hg fun _ u hu => ?_
      obtain ⟨a, ha, hcolumn⟩ := List.any_eq_true.1 hthere
      rw [List.mem_singleton.1 hu]
      exact List.mem_map.2 ⟨a, ha, by simpa using hcolumn⟩
    · rename_i hcolumn
      split
      · exact .error hg _ rfl
      · rename_i hname
        refine .single hg rfl ⟨rfl, rfl, rfl, value, g.attributeAt leaf, rfl, ?_, rfl, rfl, rfl⟩ ?_ fun hmem => ?_
        · rw [find?_attributesOf, hleaf]
          rfl
        · exact Bool.eq_false_iff.2 hname
        · obtain ⟨a, ha, hsame⟩ := List.mem_map.1 hmem
          exact hcolumn (List.any_eq_true.2 ⟨a, ha, beq_iff_eq.2 hsame⟩)

mutual

private theorem expansion_expand {g : Graph} (hg : g.Listed owner) (path : List String) (value : EntityId) :
    (d : EmbeddedValueDeclaration) →
      Expansion owner g (usesOf g.nestedTarget? path (some value) d) (expand owner path value g d)
  | .mk name _ mappings nested => by
    rw [expand, usesOf]
    refine .andThen ?_ _ fun added hadds => ?_
    · rw [List.map_eq_flatMap]
      exact .gather (fun h _ hh m _ => expansion_mapColumn hh.listed _ value m) hg
    · have hbelow := expansion_expandNested hadds.listed (path ++ [name]) value nested
      rwa [hadds.nestedTarget] at hbelow

private theorem expansion_expandNested {g : Graph} (hg : g.Listed owner) (path : List String) (value : EntityId) :
    (ds : List EmbeddedValueDeclaration) →
      Expansion owner g (usesBelow g.nestedTarget? path (some value) ds) (expandNested owner path value g ds)
  | [] => by
    rw [expandNested, usesBelow]
    exact .nil hg
  | d :: ds => by
    rw [expandNested, usesBelow, Option.bind_some]
    refine .andThen ?_ _ fun added hadds => ?_
    · cases htarget : g.nestedTarget? value d.name with
      | none => exact .error hg _ rfl
      | some target => exact expansion_expand hg path target d
    · have hrest := expansion_expandNested hadds.listed path value ds
      rwa [hadds.nestedTarget] at hrest

end

theorem expansion_expandValue (hg : g.Listed owner) (d : EmbeddedValueDeclaration) :
    Expansion owner g (usesOf g.nestedTarget? [] (d.typeName.bind (g.lookup · .embeddedValue)) d)
      (expandValue owner g d) := by
  unfold expandValue
  dsimp only
  cases d.typeName with
  | none => exact .error hg _ rfl
  | some typeName =>
    rw [Option.bind_some]
    dsimp only
    cases hvalue : g.lookup typeName .embeddedValue with
    | none => exact .error hg _ rfl
    | some value =>
      dsimp only
      split
      · exact .error hg _ rfl
      · exact expansion_expand hg [] value d

/-- The expansion of declared values leaves the attributes of the object in front of its list and adds one for each of
some of the mappings, in the order of these.  It is mapped and takes after the attribute of the embedded value that the
mapping names, and shares its name with no other member of the object and its column with no other attribute.  If there
is no error, the object has the columns of all mappings.  Nothing is added to other entities. -/
theorem attributes_of_expandValues (howner : owner < g.entities.size)
    (hlisted : ∀ o, ∀ a ∈ (g.entity o).attributes, a < g.attributes.size) (ds : List EmbeddedValueDeclaration) :
    let h := (g.expandValues owner ds).1
    let issues := (g.expandValues owner ds).2
    (∀ o, o ≠ owner → h.attributesOf o = g.attributesOf o) ∧ h.relationshipsOf owner = g.relationshipsOf owner ∧
    ∃ added, h.attributesOf owner = g.attributesOf owner ++ added ∧
      (∃ taken, taken.Sublist (g.declaredUses ds) ∧ List.Forall₂ h.MapsTo taken added) ∧
      ((added.map (·.name)).Nodup ∧ ∀ a ∈ added, (∀ b ∈ g.attributesOf owner, b.name ≠ a.name) ∧
        ∀ r ∈ g.relationshipsOf owner, r.name ≠ a.name) ∧
      ((added.map (·.columnName)).Nodup ∧ ∀ a ∈ added, ∀ b ∈ g.attributesOf owner, b.columnName ≠ a.columnName) ∧
      (Clean issues →
        ∀ u ∈ g.declaredUses ds, ∃ a ∈ h.attributesOf owner, a.columnName = some u.mapping.columnName) := by
  have hexpansion : Expansion owner g (g.declaredUses ds) (g.expandValues owner ds) := by
    refine .gather (fun h added hh d _ => ?_) ⟨howner, hlisted⟩
    have huses := expansion_expandValue hh.listed d
    simp only [hh.nestedTarget, lookup_congr hh.outline] at huses
    exact huses
  obtain ⟨taken, added, hexpands⟩ := hexpansion
  refine ⟨fun o ho => ?_, hexpands.adds.relationshipsOf owner, added, hexpands.adds.attributesOf_owner,
    ⟨taken, hexpands.inOrder, hexpands.mapsTo⟩, ⟨hexpands.names, fun a ha => ⟨fun b hb heq => ?_, fun r hr heq => ?_⟩⟩,
    ⟨hexpands.columns, fun a ha b hb heq => ?_⟩, fun clean u hu => ?_⟩
  · rw [hexpands.adds.attributesOf, if_neg ho, List.append_nil]
  · exact (hexpands.newName a ha).1 (heq ▸ List.mem_map_of_mem hb)
  · exact (hexpands.newName a ha).2 (heq ▸ List.mem_map_of_mem hr)
  · exact hexpands.newColumn a ha (heq ▸ List.mem_map_of_mem hb)
  · exact List.mem_map.1 (hexpands.complete clean u hu)

/-- A person with a name, addresses with a street and a place, and places with two coordinates. -/
def residents : Graph where
  entities :=
    #[{ name := ⟨"town", "Person"⟩, kind := .object, attributes := [0] },
      { id := 1, name := ⟨"town", "Address"⟩, kind := .embeddedValue, attributes := [1], state := .resolved,
        nested := [⟨"place", "Place", some 2⟩] },
      { id := 2, name := ⟨"town", "Place"⟩, kind := .embeddedValue, attributes := [2, 3], state := .resolved }]
  attributes :=
    #[{ name := "name", owner := 0, dataType := .string, defaults := {},
        kind := .column { columnName := some "NAME" } },
      { name := "street", owner := 1, dataType := .string, defaults := {}, kind := .column { maxLength := some 40 } },
      { name := "east", owner := 2, dataType := .double, defaults := {}, kind := .column { nullable := some false } },
      { name := "north", owner := 2, dataType := .double, defaults := {}, kind := .column { nullable := some false } }]

/-- An address at home with its place, and a place at work that shares a column with it. -/
def residences : List EmbeddedValueDeclaration :=
  [.mk "home" (some "Address") [⟨"street", "STREET", none⟩]
      [.mk "place" none [⟨"east", "EAST", none⟩, ⟨"north", "NORTH", some "latitude"⟩] []],
    .mk "work" (some "town.Place") [⟨"east", "WORK_EAST", none⟩, ⟨"north", "NORTH", none⟩] []]

/-- The person gets four attributes for five mappings, and all five columns. -/
theorem attributes_of_residents :
    0 < residents.entities.size ∧ (∀ o, ∀ a ∈ (residents.entity o).attributes, a < residents.attributes.size) ∧
      (residents.declaredUses residences).map (·.mapping.columnName) =
        ["STREET", "EAST", "NORTH", "WORK_EAST", "NORTH"] ∧
      (∀ u ∈ residents.declaredUses residences, ∃ a ∈ (residents.expandValues 0 residences).1.attributesOf 0,
        a.columnName = some u.mapping.columnName) ∧
      ∃ added, (residents.expandValues 0 residences).1.attributesOf 0 = residents.attributesOf 0 ++ added ∧
        added.map (fun a => (a.name, a.dataType, a.isNullable, a.maxLength)) =
          [("homeStreet", .string, true, some 40), ("homePlaceEast", .double, false, none),
            ("latitude", .double, false, none), ("workEast", .double, false, none)] ∧
        (added.map (·.name)).Nodup ∧ (added.map (·.columnName)).Nodup := by
  have hsize : 0 < residents.entities.size := by decide
  have hlisted : ∀ o, ∀ a ∈ (residents.entity o).attributes, a < residents.attributes.size := by
    intro o a ha
    have hall : ∀ o < residents.entities.size,
        ∀ a ∈ (residents.entity o).attributes, a < residents.attributes.size := by decide
    exact hall o (residents.lt_size_of_mem_attributes ha) a ha
  have hclean : Clean (residents.expandValues 0 residences).2 := by
    unfold Clean
    decide +kernel
  have hattributes : (((residents.expandValues 0 residences).1.attributesOf 0).drop 1).map
      (fun a => (a.name, a.dataType, a.isNullable, a.maxLength)) =
        [("homeStreet", .string, true, some 40), ("homePlaceEast", .double, false, none),
          ("latitude", .double, false, none), ("workEast", .double, false, none)] := by decide +kernel
  obtain ⟨-, -, added, hadded, -, ⟨hnames, -⟩, ⟨hcolumns, -⟩, hcomplete⟩ :=
    attributes_of_expandValues hsize hlisted residences
  have hrest : ((residents.expandValues 0 residences).1.attributesOf 0).drop 1 = added := by
    rw [hadded]
    rfl
  exact ⟨hsize, hlisted, by decide +kernel, hcomplete hclean, added, hadded, hrest ▸ hattributes, hnames, hcolumns⟩

end Metamodel.Graph
