import Metamodel.Declaration.Reader
import Metamodel.Declaration.Writer
import Metamodel.Proofs.Json.Decoding

/-!
# Reading written declarations

Declarations that are written and read again with a lawful library are the same (`ofText_toText`), if their text does
not nest more containers than are read.  Each sort of declaration is one lemma with a line for each field, in the order
of its decoder; the names of the fields agree by unification.
-/

namespace Metamodel

open Json Decode

variable {D : Type → Type} [Library D] [LawfulLibrary D]

/-! ### Names of a table -/

private theorem readsBack_dataType (t : DataType) : ReadsBack (dataType : D DataType) t.toJson t :=
  readsBack_variant (by cases t <;> decide)

private theorem readsBack_timezone (p : TimezonePolicy) : ReadsBack (timezone : D TimezonePolicy) p.toJson p :=
  readsBack_variant (by cases p <;> decide)

private theorem readsBack_keyGenerator (g : KeyGenerator) :
    ReadsBack (named KeyGenerator.name [.max, .simulatedSequence] : D KeyGenerator) g.toJson g :=
  readsBack_variant (by cases g <;> decide)

private theorem readsBack_accessMode (m : AccessMode) :
    ReadsBack (named AccessMode.name [.transactional, .readOnly] : D AccessMode) m.toJson m :=
  readsBack_variant (by cases m <;> decide)

/-! ### Fields with a default -/

section

variable {α : Type} {decoder : D α} {encode : α → Json} {rest : List (String × Json)}

/-- An optional field is written as `null` when it is not set. -/
private theorem readsBack_optional (name : String) (h : ∀ a, ReadsBack decoder (encode a) a) (a : Option α) :
    (optional name decoder).ReadsBack ((name, Json.option encode a) :: rest) rest a := by
  cases a with
  | none => exact .single name _ .null (LawfulLibrary.reads_option_none decoder)
  | some a => exact .single name _ (h a).plain (LawfulLibrary.reads_option_some (h a).ne_null (h a).reads)

private theorem readsBack_flag (name : String) (b : Bool) :
    (flag name : Fields D Bool).ReadsBack ((name, .bool b) :: rest) rest b :=
  .fieldD name (readsBack_bool b)

private theorem readsBack_many (name : String) {as : List α} (h : ∀ a ∈ as, ReadsBack decoder (encode a) a) :
    (many name decoder).ReadsBack ((name, Json.list encode as) :: rest) rest as :=
  .fieldD name (readsBack_list h)

end

/-! ### Members of objects -/

private theorem readsBack_typeName {rest : List (String × Json)} (n : TypeName) :
    (typeName : Fields D TypeName).ReadsBack (n.fields ++ rest) rest n :=
  .seq (.map TypeName.mk (.field _ (readsBack_text _))) (.field _ (readsBack_text _))

private theorem readsBack_sequenceDeclaration (s : SequenceDeclaration) :
    ReadsBack (sequenceDeclaration : D SequenceDeclaration) s.toJson s :=
  (Fields.ReadsBack.map SequenceDeclaration.mk (.field _ (readsBack_text _))
    |>.seq (readsBack_optional _ readsBack_uint32 _)
    |>.seq (readsBack_optional _ readsBack_int64 _)
    |>.seq (readsBack_optional _ readsBack_uint32 _)).record _ (by simp)

private theorem readsBack_columnSettings {rest : List (String × Json)} (c : ColumnSettings) :
    (columnSettings : Fields D ColumnSettings).ReadsBack (c.fields ++ rest) rest c :=
  Fields.ReadsBack.map ColumnSettings.mk (readsBack_optional _ readsBack_text _)
    |>.seq (readsBack_optional _ readsBack_bool _)
    |>.seq (readsBack_flag _ _)
    |>.seq (readsBack_flag _ _)
    |>.seq (readsBack_flag _ _)
    |>.seq (readsBack_optional _ readsBack_uint32 _)
    |>.seq (readsBack_optional _ readsBack_bool _)
    |>.seq (readsBack_optional _ readsBack_bool _)
    |>.seq (readsBack_optional _ readsBack_bool _)
    |>.seq (readsBack_optional _ readsBack_timezone _)
    |>.seq (readsBack_optional _ readsBack_text _)
    |>.seq (readsBack_optional _ readsBack_int32 _)
    |>.seq (readsBack_optional _ readsBack_int32 _)
    |>.seq (readsBack_flag _ _)
    |>.seq (readsBack_optional _ readsBack_bool _)
    |>.seq (readsBack_flag _ _)
    |>.seq (readsBack_optional _ readsBack_keyGenerator _)
    |>.seq (readsBack_optional _ readsBack_sequenceDeclaration _)

private theorem readsBack_attributeDeclaration (a : AttributeDeclaration) :
    ReadsBack (attributeDeclaration : D AttributeDeclaration) a.toJson a :=
  (Fields.ReadsBack.map AttributeDeclaration.mk (.field _ (readsBack_text _))
    |>.seq (.field _ (readsBack_dataType _))
    |>.seq (readsBack_columnSettings _)).record _ (by simp [ColumnSettings.fields])

private theorem readsBack_asOfSettings {rest : List (String × Json)} (s : AsOfSettings) :
    (asOfSettings : Fields D AsOfSettings).ReadsBack (s.fields ++ rest) rest s :=
  Fields.ReadsBack.map AsOfSettings.mk (readsBack_optional _ readsBack_text _)
    |>.seq (readsBack_optional _ readsBack_text _)
    |>.seq (readsBack_optional _ readsBack_text _)
    |>.seq (readsBack_flag _ _)
    |>.seq (readsBack_optional _ readsBack_text _)
    |>.seq (readsBack_optional _ readsBack_bool _)
    |>.seq (readsBack_flag _ _)
    |>.seq (readsBack_optional _ readsBack_timezone _)
    |>.seq (readsBack_optional _ readsBack_bool _)
    |>.seq (readsBack_optional _ readsBack_bool _)

private theorem readsBack_asOfDeclaration (a : AsOfDeclaration) :
    ReadsBack (asOfDeclaration : D AsOfDeclaration) a.toJson a :=
  (Fields.ReadsBack.map AsOfDeclaration.mk (.field _ (readsBack_text _))
    |>.seq (readsBack_asOfSettings _)).record _ (by simp [AsOfSettings.fields])

private theorem readsBack_sourceDeclaration (s : SourceDeclaration) :
    ReadsBack (sourceDeclaration : D SourceDeclaration) s.toJson s :=
  (Fields.ReadsBack.map SourceDeclaration.mk (.field _ (readsBack_text _))
    |>.seq (.field _ (readsBack_dataType _))).record _ (by simp)

private theorem readsBack_enumerationAttributeDeclaration (a : EnumerationAttributeDeclaration) :
    ReadsBack (enumerationAttributeDeclaration : D EnumerationAttributeDeclaration) a.toJson a :=
  (Fields.ReadsBack.map EnumerationAttributeDeclaration.mk (.field _ (readsBack_text _))
    |>.seq (.field _ (readsBack_text _))
    |>.seq (readsBack_optional _ readsBack_text _)
    |>.seq (readsBack_optional _ readsBack_bool _)
    |>.seq (readsBack_flag _ _)
    |>.seq (readsBack_optional _ readsBack_sequenceDeclaration _)
    |>.seq (readsBack_optional _ readsBack_timezone _)).record _ (by simp)

private theorem readsBack_columnMapping (m : ColumnMapping) : ReadsBack (columnMapping : D ColumnMapping) m.toJson m :=
  (Fields.ReadsBack.map ColumnMapping.mk (.field _ (readsBack_text _))
    |>.seq (.field _ (readsBack_text _))
    |>.seq (readsBack_optional _ readsBack_text _)).record _ (by simp)

private theorem readsBack_relationshipDeclaration (r : RelationshipDeclaration) :
    ReadsBack (relationshipDeclaration : D RelationshipDeclaration) r.toJson r :=
  (Fields.ReadsBack.map RelationshipDeclaration.mk (.field _ (readsBack_text _))
    |>.seq (.field _ (readsBack_text _))
    |>.seq (readsBack_optional _ readsBack_text _)
    |>.seq (readsBack_optional _ readsBack_text _)
    |>.seq (readsBack_optional _ readsBack_text _)
    |>.seq (readsBack_optional _ readsBack_bool _)
    |>.seq (readsBack_optional _ readsBack_text _)
    |>.seq (readsBack_optional _ readsBack_text _)).record _ (by simp)

/-! ### Embedded values -/

private theorem listToJson_eq_map (vs : List EmbeddedValueDeclaration) :
    EmbeddedValueDeclaration.listToJson vs = vs.map EmbeddedValueDeclaration.toJson := by
  induction vs with
  | nil => rfl
  | cons v vs ih => rw [EmbeddedValueDeclaration.listToJson, ih, List.map_cons]

private theorem toJson_embeddedValue (name : String) (typeName : Option String) (mappings : List ColumnMapping)
    (nested : List EmbeddedValueDeclaration) :
    (EmbeddedValueDeclaration.mk name typeName mappings nested).toJson =
      .record [("name", text name), ("type_name", optionalText typeName),
        ("mappings", Json.list ColumnMapping.toJson mappings),
        ("nested", Json.list EmbeddedValueDeclaration.toJson nested)] := by
  rw [EmbeddedValueDeclaration.toJson, listToJson_eq_map]
  rfl

private theorem plain_optionalText (s : Option String) : (optionalText s).Plain := by
  cases s with
  | none => exact .null
  | some s => exact .text s

private theorem plain_columnMapping (m : ColumnMapping) : m.toJson.Plain :=
  .record (List.forall_mem_cons.2 ⟨.text _, List.forall_mem_cons.2 ⟨.text _,
    List.forall_mem_singleton.2 (plain_optionalText _)⟩⟩)

mutual

private theorem plain_embeddedValue : (v : EmbeddedValueDeclaration) → v.toJson.Plain
  | .mk name typeName mappings nested => by
    have hmappings : (Json.list ColumnMapping.toJson mappings).Plain := by
      refine .array fun j hj => ?_
      obtain ⟨m, -, rfl⟩ := List.mem_map.1 hj
      exact plain_columnMapping m
    rw [EmbeddedValueDeclaration.toJson]
    exact .record (List.forall_mem_cons.2 ⟨.text name, List.forall_mem_cons.2 ⟨plain_optionalText typeName,
      List.forall_mem_cons.2 ⟨hmappings, List.forall_mem_singleton.2 (.array (plain_listToJson nested))⟩⟩⟩)

private theorem plain_listToJson :
    (vs : List EmbeddedValueDeclaration) → ∀ j ∈ EmbeddedValueDeclaration.listToJson vs, j.Plain
  | [] => nofun
  | v :: vs => List.forall_mem_cons.2 ⟨plain_embeddedValue v, plain_listToJson vs⟩

end

/-- A use of an embedded value is read back if the values nested in it are read. -/
private theorem readsBack_embeddedValueLevel {inner : D EmbeddedValueDeclaration} (v : EmbeddedValueDeclaration)
    (h : ∀ w ∈ v.nested, ReadsBack inner w.toJson w) : ReadsBack (embeddedValueLevel inner) v.toJson v := by
  obtain ⟨name, typeName, mappings, nested⟩ := v
  rw [toJson_embeddedValue]
  exact (Fields.ReadsBack.map EmbeddedValueDeclaration.mk (.field _ (readsBack_text _))
    |>.seq (readsBack_optional _ readsBack_text _)
    |>.seq (readsBack_many _ fun m _ => readsBack_columnMapping m)
    |>.seq (readsBack_many _ h)).record _ (by simp)

/-- A nested value opens fewer containers than the value in which it is nested. -/
private theorem nesting_nested_lt {v w : EmbeddedValueDeclaration} (hw : w ∈ v.nested) :
    w.toJson.nesting < v.toJson.nesting := by
  obtain ⟨name, typeName, mappings, nested⟩ := v
  obtain ⟨inner, hdepth, hmembers⟩ := exists_nesting_record_le (Nat.le_of_eq (congrArg nesting
    (toJson_embeddedValue name typeName mappings nested)).symm)
  have hlist : (Json.list EmbeddedValueDeclaration.toJson nested).nesting ≤ inner :=
    hmembers ("nested", Json.list EmbeddedValueDeclaration.toJson nested) (by simp)
  obtain ⟨innermost, rfl, hitems⟩ := exists_nesting_list_le hlist
  rw [hdepth]
  exact Nat.lt_succ_of_lt (Nat.lt_succ_of_le (hitems w hw))

private theorem readsBack_embeddedValueDeclaration (v : EmbeddedValueDeclaration) :
    ReadsBack (embeddedValueDeclaration : D EmbeddedValueDeclaration) v.toJson v := by
  have ne_null (w : EmbeddedValueDeclaration) : w.toJson ≠ .null := by
    cases w
    rw [toJson_embeddedValue]
    nofun
  refine ⟨plain_embeddedValue v, ne_null v, LawfulLibrary.reads_recursive (fun inner w hw => ?_) v⟩
  refine (readsBack_embeddedValueLevel w fun x hx => ?_).reads
  exact ⟨plain_embeddedValue x, ne_null x, hw x (nesting_nested_lt hx)⟩

/-! ### Types -/

private theorem readsBack_objectDeclaration (o : ObjectDeclaration) :
    ReadsBack (objectDeclaration : D ObjectDeclaration) o.toJson o :=
  (Fields.ReadsBack.map ObjectDeclaration.mk (readsBack_typeName _)
    |>.seq (readsBack_optional _ readsBack_text _)
    |>.seq (.fieldD _ (readsBack_accessMode _))
    |>.seq (readsBack_flag _ _)
    |>.seq (readsBack_optional _ readsBack_bool _)
    |>.seq (readsBack_many _ fun a _ => readsBack_attributeDeclaration a)
    |>.seq (readsBack_many _ fun a _ => readsBack_asOfDeclaration a)
    |>.seq (readsBack_optional _ readsBack_sourceDeclaration _)
    |>.seq (readsBack_many _ fun a _ => readsBack_enumerationAttributeDeclaration a)
    |>.seq (readsBack_many _ fun v _ => readsBack_embeddedValueDeclaration v)
    |>.seq (readsBack_many _ fun r _ => readsBack_relationshipDeclaration r)
    |>.seq (readsBack_many _ fun s _ => readsBack_text s)).record _ (by simp [TypeName.fields])

private theorem readsBack_embeddedAttributeDeclaration (a : EmbeddedAttributeDeclaration) :
    ReadsBack (embeddedAttributeDeclaration : D EmbeddedAttributeDeclaration) a.toJson a :=
  (Fields.ReadsBack.map EmbeddedAttributeDeclaration.mk (.field _ (readsBack_text _))
    |>.seq (.field _ (readsBack_dataType _))
    |>.seq (readsBack_optional _ readsBack_bool _)
    |>.seq (readsBack_optional _ readsBack_uint32 _)).record _ (by simp)

private theorem readsBack_nestedDeclaration (n : NestedDeclaration) :
    ReadsBack (nestedDeclaration : D NestedDeclaration) n.toJson n :=
  (Fields.ReadsBack.map NestedDeclaration.mk (.field _ (readsBack_text _))
    |>.seq (.field _ (readsBack_text _))).record _ (by simp)

private theorem readsBack_embeddedObjectDeclaration (o : EmbeddedObjectDeclaration) :
    ReadsBack (embeddedObjectDeclaration : D EmbeddedObjectDeclaration) o.toJson o :=
  (Fields.ReadsBack.map EmbeddedObjectDeclaration.mk (readsBack_typeName _)
    |>.seq (readsBack_many _ fun a _ => readsBack_embeddedAttributeDeclaration a)
    |>.seq (readsBack_many _ fun n _ => readsBack_nestedDeclaration n)).record _ (by simp [TypeName.fields])

private theorem readsBack_enumerationMember (m : EnumerationMember) :
    ReadsBack (enumerationMember : D EnumerationMember) m.toJson m :=
  (Fields.ReadsBack.map EnumerationMember.mk (.field _ (readsBack_text _))
    |>.seq (.field _ (readsBack_text _))).record _ (by simp)

private theorem readsBack_enumerationDeclaration (e : EnumerationDeclaration) :
    ReadsBack (enumerationDeclaration : D EnumerationDeclaration) e.toJson e :=
  (Fields.ReadsBack.map EnumerationDeclaration.mk (readsBack_typeName _)
    |>.seq (.field _ (readsBack_dataType _))
    |>.seq (readsBack_many _ fun m _ => readsBack_enumerationMember m)).record _ (by simp [TypeName.fields])

private theorem readsBack_interfaceAttribute (a : InterfaceAttributeDeclaration) :
    ReadsBack (interfaceAttribute : D InterfaceAttributeDeclaration) a.toJson a :=
  (Fields.ReadsBack.map InterfaceAttributeDeclaration.mk (.field _ (readsBack_text _))
    |>.seq (.field _ (readsBack_dataType _))).record _ (by simp)

private theorem readsBack_interfaceAsOf (a : InterfaceAsOfDeclaration) :
    ReadsBack (interfaceAsOf : D InterfaceAsOfDeclaration) a.toJson a :=
  (Fields.ReadsBack.map InterfaceAsOfDeclaration.mk (.field _ (readsBack_text _))
    |>.seq (readsBack_flag _ _)).record _ (by simp)

private theorem readsBack_interfaceRelationship (r : InterfaceRelationshipDeclaration) :
    ReadsBack (interfaceRelationship : D InterfaceRelationshipDeclaration) r.toJson r :=
  (Fields.ReadsBack.map InterfaceRelationshipDeclaration.mk (.field _ (readsBack_text _))
    |>.seq (.field _ (readsBack_text _))
    |>.seq (.field _ (readsBack_text _))).record _ (by simp)

private theorem readsBack_interfaceDeclaration (i : InterfaceDeclaration) :
    ReadsBack (interfaceDeclaration : D InterfaceDeclaration) i.toJson i :=
  (Fields.ReadsBack.map InterfaceDeclaration.mk (readsBack_typeName _)
    |>.seq (readsBack_many _ fun s _ => readsBack_text s)
    |>.seq (readsBack_many _ fun a _ => readsBack_interfaceAttribute a)
    |>.seq (readsBack_many _ fun a _ => readsBack_interfaceAsOf a)
    |>.seq (readsBack_many _ fun r _ => readsBack_interfaceRelationship r)).record _ (by simp [TypeName.fields])

/-! ### All declarations -/

private theorem readsBack_declarations (d : Declarations) : ReadsBack (declarations : D Declarations) d.toJson d :=
  (Fields.ReadsBack.map Declarations.mk (.fieldD _ (readsBack_nameMap readsBack_objectDeclaration _))
    |>.seq (.fieldD _ (readsBack_nameMap readsBack_embeddedObjectDeclaration _))
    |>.seq (.fieldD _ (readsBack_nameMap readsBack_enumerationDeclaration _))
    |>.seq (.fieldD _ (readsBack_nameMap readsBack_interfaceDeclaration _))).record _ (by simp)

/-- Declarations that are written are read as they were, whatever they hold and whatever lawful library they are written
and read with, if no more containers are within each other than are read. -/
theorem Declarations.ofText_toText (d : Declarations) (h : d.toJson.nesting ≤ maxDepth) :
    Declarations.ofTextWith D (d.toTextWith D) = .ok d := by
  have hread : ReadsBack (declarations : D Declarations) d.toJson d := readsBack_declarations d
  have hparse := LawfulLibrary.parse_print (D := D) hread.plain h
  simp only [Declarations.ofTextWith, Declarations.toTextWith, Library.read, hparse, hread.reads maxDepth h]
  rfl

/-- An object under a key with a quote and a line break in it, and a value nested in its embedded value. -/
def offers : Declarations where
  objects := .ofList [("the \"offer\"\n", {
    name := ⟨"shop", "Offer"⟩,
    attributes := [{ name := "id", dataType := .long, column := { primaryKey := true, maxLength := some 4294967295 } }],
    embeddedValues := [.mk "price" (some "shop.Price") [] [.mk "currency" none [⟨"code", "CURRENCY", none⟩] []]] })]

theorem Declarations.ofText_offers :
    offers.toJson.nesting = 9 ∧ Declarations.ofText offers.toText = .ok offers :=
  have hnesting : offers.toJson.nesting = 9 := by decide +kernel
  ⟨hnesting, @Declarations.ofText_toText Decoder _ _ offers (by rw [hnesting]; decide)⟩

end Metamodel
