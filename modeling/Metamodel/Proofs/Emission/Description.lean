import Metamodel.Proofs.Emission.Interleaving
import Metamodel.Proofs.Text.Placeholder

/-!
# What descriptions say

The lines of a description have a form of their own, into which names are put (`headerLine`, `attributeLine`,
`relationshipLine`).  The values of a template are filled in one after another, so a name may bring in a placeholder that
is replaced after it: the lines of an object have their form with the names that come of this (`describeHeader_eq`,
`describeAttribute_eq`, `describeRelationship_eq`), and with the names themselves if these have no such placeholder
(`NamesAsTheyAre`).
-/

namespace Metamodel

namespace Graph

open Text (fill Hole Lacks)

/-! ### The form of the lines -/

def accessWord (e : Entity) : String :=
  if e.isReadOnly then "read-only" else "transactional"

def superPart (g : Graph) (id : EntityId) : String :=
  match (g.entity id).superEntity with
  | some parent => " extends " ++ g.qualifiedName parent
  | none => ""

def attributeFlags (g : Graph) (a : Attribute) : String :=
  flag a.isPrimaryKey "pk" ++ flag a.isAsOf "as-of" ++ flag a.isInherited "inherited" ++
    match a.ownership with
    | some o => " owned-by " ++ (g.relationshipAt o.relationship).name
    | none => ""

/-- The name of the entity that a relationship leads to, or the name that it gives. -/
def relatedText (g : Graph) (r : Relationship) : String :=
  (r.related.map g.qualifiedName).getD r.relatedName

def cardinalityText (r : Relationship) : String :=
  (r.cardinality.map (·.key)).getD ""

def relationshipFlags (r : Relationship) : String :=
  flag r.isRelatedDependent "dependent" ++ flag r.isReverse "reverse"

def headerLine (g : Graph) (id : EntityId) (name : String) : String :=
  name ++ " [" ++ accessWord (g.entity id) ++ "]" ++ g.superPart id

def attributeLine (g : Graph) (a : Attribute) (name : String) : String :=
  "  " ++ name ++ ": " ++ a.dataType.name ++ g.attributeFlags a

def relationshipLine (r : Relationship) (name related : String) : String :=
  "  " ++ name ++ " -> " ++ related ++ " (" ++ cardinalityText r ++ ")" ++ relationshipFlags r

/-! ### What is shown of a name -/

/-- The name in a header, with the kind and the superclass filled in. -/
def shownName (g : Graph) (id : EntityId) : String :=
  fill (g.qualifiedName id) [("kind", accessWord (g.entity id)), ("super", g.superPart id)]

def shownAttribute (g : Graph) (a : Attribute) : String :=
  fill a.name [("type", a.dataType.name), ("flags", g.attributeFlags a)]

def shownRelationship (g : Graph) (r : Relationship) : String :=
  fill r.name [("related", g.relatedText r), ("cardinality", cardinalityText r), ("flags", relationshipFlags r)]

def shownRelated (g : Graph) (r : Relationship) : String :=
  fill (g.relatedText r) [("cardinality", cardinalityText r), ("flags", relationshipFlags r)]

/-- No name in the description of an object brings in a placeholder that is replaced after it. -/
structure NamesAsTheyAre (g : Graph) (id : EntityId) : Prop where
  header : Lacks ["kind", "super"] (g.qualifiedName id)
  attributes : ∀ a ∈ g.attributesOf id, Lacks ["type", "flags"] a.name
  relationships : ∀ r ∈ g.relationshipsOf id, Lacks ["related", "cardinality", "flags"] r.name
  related : ∀ r ∈ g.relationshipsOf id, Lacks ["cardinality", "flags"] (g.relatedText r)

variable {g : Graph} {id : EntityId} {a : Attribute} {r : Relationship}

private theorem shownName_eq (h : Lacks ["kind", "super"] (g.qualifiedName id)) : g.shownName id = g.qualifiedName id :=
  Text.fill_of_lacks h

private theorem shownAttribute_eq (h : Lacks ["type", "flags"] a.name) : g.shownAttribute a = a.name :=
  Text.fill_of_lacks h

private theorem shownRelationship_eq (h : Lacks ["related", "cardinality", "flags"] r.name) :
    g.shownRelationship r = r.name :=
  Text.fill_of_lacks h

private theorem shownRelated_eq (h : Lacks ["cardinality", "flags"] (g.relatedText r)) :
    g.shownRelated r = g.relatedText r :=
  Text.fill_of_lacks h

/-! ### Templates -/

def headerHoles : List Hole :=
  [⟨"name", " ["⟩, ⟨"kind", "]"⟩, ⟨"super", ""⟩]

def attributeHoles : List Hole :=
  [⟨"name", ": "⟩, ⟨"type", ""⟩, ⟨"flags", ""⟩]

def relationshipHoles : List Hole :=
  [⟨"name", " -> "⟩, ⟨"related", " ("⟩, ⟨"cardinality", ")"⟩, ⟨"flags", ""⟩]

private theorem brace_not_mem_accessWord (e : Entity) : '\x7b' ∉ (accessWord e).toList := by
  unfold accessWord
  split <;> decide

private theorem brace_not_mem_typeName (t : DataType) : '\x7b' ∉ t.name.toList := by
  cases t <;> decide

private theorem brace_not_mem_cardinalityText (r : Relationship) : '\x7b' ∉ (cardinalityText r).toList := by
  unfold cardinalityText
  rcases r.cardinality with _ | c
  · decide
  · cases c <;> decide

/-- The header has its form, with the name as it is shown there. -/
theorem describeHeader_eq (g : Graph) (id : EntityId) :
    g.describeHeader headerTemplate id = g.headerLine id (g.shownName id) := by
  have hparted : Hole.Parted headerHoles [g.qualifiedName id, accessWord (g.entity id), g.superPart id] :=
    ⟨.inr (.inr ⟨' ', _, rfl, by decide⟩), .inr (.inr ⟨']', _, rfl, by decide⟩), .inl rfl, trivial⟩
  have hfilled := Text.toList_fill_template headerTemplate [] (by decide) (by decide) rfl (by decide) hparted
  refine String.toList_inj.1 (hfilled.trans ?_)
  show Text.fillIn [("kind", accessWord (g.entity id)), ("super", g.superPart id)] (g.qualifiedName id).toList ++
    (" [".toList ++ (Text.fillIn [("super", g.superPart id)] (accessWord (g.entity id)).toList ++
      ("]".toList ++ ((g.superPart id).toList ++ [])))) = _
  rw [← Text.toList_fill, Text.fillIn_of_not_mem (brace_not_mem_accessWord _), headerLine, shownName]
  simp only [String.toList_append, List.append_assoc, List.append_nil]

/-- So has the line of an attribute. -/
theorem describeAttribute_eq (g : Graph) (a : Attribute) :
    g.describeAttribute attributeTemplate a = g.attributeLine a (g.shownAttribute a) := by
  have hparted : Hole.Parted attributeHoles [a.name, a.dataType.name, g.attributeFlags a] :=
    ⟨.inr (.inr ⟨':', _, rfl, by decide⟩), .inr (.inl (brace_not_mem_typeName _)), .inl rfl, trivial⟩
  have hfilled := Text.toList_fill_template attributeTemplate "  ".toList (by decide) (by decide) rfl (by decide)
    hparted
  refine String.toList_inj.1 (hfilled.trans ?_)
  show "  ".toList ++ (Text.fillIn [("type", a.dataType.name), ("flags", g.attributeFlags a)] a.name.toList ++
    (": ".toList ++ (Text.fillIn [("flags", g.attributeFlags a)] a.dataType.name.toList ++
      ([] ++ ((g.attributeFlags a).toList ++ []))))) = _
  rw [← Text.toList_fill, Text.fillIn_of_not_mem (brace_not_mem_typeName _), attributeLine, shownAttribute]
  simp only [String.toList_append, List.append_assoc, List.append_nil, List.nil_append]

/-- So has the line of a relationship, with both of its names as they are shown. -/
theorem describeRelationship_eq (g : Graph) (r : Relationship) :
    g.describeRelationship relationshipTemplate r = relationshipLine r (g.shownRelationship r) (g.shownRelated r) := by
  have hparted : Hole.Parted relationshipHoles [r.name, g.relatedText r, cardinalityText r, relationshipFlags r] :=
    ⟨.inr (.inr ⟨' ', _, rfl, by decide⟩), .inr (.inr ⟨' ', _, rfl, by decide⟩),
      .inr (.inl (brace_not_mem_cardinalityText r)), .inl rfl, trivial⟩
  have hfilled := Text.toList_fill_template relationshipTemplate "  ".toList (by decide) (by decide) rfl (by decide)
    hparted
  refine String.toList_inj.1 (hfilled.trans ?_)
  show "  ".toList ++
    (Text.fillIn [("related", g.relatedText r), ("cardinality", cardinalityText r), ("flags", relationshipFlags r)]
        r.name.toList ++
      (" -> ".toList ++
        (Text.fillIn [("cardinality", cardinalityText r), ("flags", relationshipFlags r)] (g.relatedText r).toList ++
          (" (".toList ++
            (Text.fillIn [("flags", relationshipFlags r)] (cardinalityText r).toList ++
              (")".toList ++ ((relationshipFlags r).toList ++ []))))))) = _
  rw [← Text.toList_fill, ← Text.toList_fill, Text.fillIn_of_not_mem (brace_not_mem_cardinalityText r),
    relationshipLine, shownRelationship, shownRelated]
  simp only [String.toList_append, List.append_assoc, List.append_nil]

/-! ### Descriptions -/

/-- The lines of an object in their form, given the names to put into them. -/
def textWith (g : Graph) (id : EntityId) (header : String) (member : Attribute → String)
    (relationship related : Relationship → String) : String :=
  "\n".intercalate
    (g.headerLine id header :: (g.attributesOf id).map (fun a => g.attributeLine a (member a)) ++
      (g.relationshipsOf id).map fun r => relationshipLine r (relationship r) (related r))

/-- Names without later placeholders are shown as they are. -/
private theorem textWith_shown (h : g.NamesAsTheyAre id) :
    g.textWith id (g.shownName id) g.shownAttribute g.shownRelationship g.shownRelated =
      g.textWith id (g.qualifiedName id) (·.name) (·.name) g.relatedText := by
  have hattributes : (g.attributesOf id).map (fun a => g.attributeLine a (g.shownAttribute a)) =
      (g.attributesOf id).map fun a => g.attributeLine a a.name :=
    List.map_congr_left fun a ha => by rw [shownAttribute_eq (h.attributes a ha)]
  have hrelationships :
      (g.relationshipsOf id).map (fun r => relationshipLine r (g.shownRelationship r) (g.shownRelated r)) =
        (g.relationshipsOf id).map fun r => relationshipLine r r.name (g.relatedText r) :=
    List.map_congr_left fun r hr => by
      rw [shownRelationship_eq (h.relationships r hr), shownRelated_eq (h.related r hr)]
  rw [textWith, shownName_eq h.header, hattributes, hrelationships, textWith]

/-- Whatever has been emitted before, the description has its lines in their form. -/
private theorem describe_eq (g : Graph) (id : EntityId) (before : List EntityId) :
    (describe g id (describe.cacheAfter g before)).1 =
      .ok (g.qualifiedName id,
        g.textWith id (g.shownName id) g.shownAttribute g.shownRelationship g.shownRelated) := by
  rw [g.isUniform_describe before id]
  show Except.ok (g.qualifiedName id,
    "\n".intercalate (g.descriptionLines headerTemplate attributeTemplate relationshipTemplate id)) = _
  rw [descriptionLines, describeHeader_eq, List.map_congr_left fun a _ => g.describeAttribute_eq a,
    List.map_congr_left fun r _ => g.describeRelationship_eq r, textWith]

/-- Whatever names there are, the description of an object has a header, a line for each attribute and a line for each
relationship, in this order and of this form, with what is shown of the names; and the names are shown as they are if
none of them has a placeholder of a value that is filled in after it. -/
theorem description_of_any_names (g : Graph) (id : EntityId) (before : List EntityId) :
    (describe g id (describe.cacheAfter g before)).1 =
        .ok (g.qualifiedName id,
          g.textWith id (g.shownName id) g.shownAttribute g.shownRelationship g.shownRelated) ∧
      (g.NamesAsTheyAre id →
        (describe g id (describe.cacheAfter g before)).1 =
          .ok (g.qualifiedName id, g.textWith id (g.qualifiedName id) (·.name) (·.name) g.relatedText)) := by
  have hshown := g.describe_eq id before
  refine ⟨hshown, fun h => ?_⟩
  rw [hshown, textWith_shown h]

/-- Members named like placeholders that are not replaced after them. -/
def roster : Declarations where
  objects := ⟨[
    ("hr.Person",
      { name := ⟨"hr", "Person"⟩
        attributes := [{ name := "id", dataType := .int, column := { primaryKey := true } },
          { name := "\x7bname\x7d", dataType := .int }]
        relationships := [{
          name := "\x7btype\x7d"
          relatedObject := "Person"
          cardinality := some "many-to-one"
          query := some "this.id = Person.id" }] })], by decide⟩

/-- The graph that the sample resolves to. -/
def rosterGraph : Graph :=
  (roster.resolve .default).1.toOption.getD empty

/-- They are shown as they are. -/
theorem description_of_roster :
    (roster.resolve .default).1 = .ok rosterGraph ∧ rosterGraph.NamesAsTheyAre 0 ∧
      (describe rosterGraph 0 .empty).1 =
        .ok ("hr.Person", "hr.Person [transactional]\n  id: int pk owned-by \x7btype\x7d\n  \x7bname\x7d: int\n" ++
          "  \x7btype\x7d -> hr.Person (many-to-one)") := by
  have hresolve : (roster.resolve .default).1 = .ok rosterGraph := eq_ok_of_isOk (by decide +kernel) empty
  have hnames : rosterGraph.NamesAsTheyAre 0 :=
    ⟨by decide +kernel, by decide +kernel, by decide +kernel, by decide +kernel⟩
  refine ⟨hresolve, hnames, ((description_of_any_names rosterGraph 0 []).2 hnames).trans (congrArg Except.ok ?_)⟩
  decide +kernel

/-- A class named like the placeholder of the kind. -/
def clash : Declarations where
  objects := ⟨[
    ("com.acme.\x7bkind\x7d",
      { name := ⟨"com.acme", "\x7bkind\x7d"⟩
        attributes := [{ name := "id", dataType := .int, column := { primaryKey := true } }] })], by decide⟩

/-- The graph that the sample resolves to. -/
def clashGraph : Graph :=
  (clash.resolve .default).1.toOption.getD empty

/-- The kind is shown in place of its name. -/
theorem description_of_clash :
    (clash.resolve .default).1 = .ok clashGraph ∧
      (describe clashGraph 0 .empty).1 =
        .ok ("com.acme.\x7bkind\x7d", "com.acme.transactional [transactional]\n  id: int pk") ∧
      clashGraph.textWith 0 (clashGraph.qualifiedName 0) (·.name) (·.name) clashGraph.relatedText =
        "com.acme.\x7bkind\x7d [transactional]\n  id: int pk" ∧
      (describe clashGraph 0 .empty).1 ≠
        .ok (clashGraph.qualifiedName 0,
          clashGraph.textWith 0 (clashGraph.qualifiedName 0) (·.name) (·.name) clashGraph.relatedText) := by
  have hresolve : (clash.resolve .default).1 = .ok clashGraph := eq_ok_of_isOk (by decide +kernel) empty
  have hshown : (describe clashGraph 0 .empty).1 =
      .ok ("com.acme.\x7bkind\x7d", "com.acme.transactional [transactional]\n  id: int pk") :=
    (clashGraph.describe_eq 0 []).trans (congrArg Except.ok (by decide +kernel))
  have hplain : clashGraph.textWith 0 (clashGraph.qualifiedName 0) (·.name) (·.name) clashGraph.relatedText =
      "com.acme.\x7bkind\x7d [transactional]\n  id: int pk" := by
    decide +kernel
  refine ⟨hresolve, hshown, hplain, fun heq => ?_⟩
  rw [hshown, hplain] at heq
  exact absurd (congrArg Prod.snd (Except.ok.inj heq)) (by decide)

end Graph

end Metamodel
