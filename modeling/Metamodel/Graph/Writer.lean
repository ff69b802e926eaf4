import Metamodel.Declaration.Writer
import Metamodel.Graph.Basic

/-!
# Graphs as JSON

The form of a graph that its digest is taken of: every field of every element, in a fixed order.
-/

namespace Metamodel

open Json

private def texts (xs : List String) : Json :=
  list text xs

private def index? (id : Option Nat) : Json :=
  option nat id

def Cardinality.toJson (c : Cardinality) : Json :=
  text c.name

/-! ### Attributes -/

def MemberDefaults.toJson (d : MemberDefaults) : Json :=
  .record [("final_getters", .bool d.finalGetters), ("timezone_conversion", d.timezone.toJson)]

private def memberToJson (m : EnumerationMember) : Json :=
  .record [("member", text m.name), ("persisted_value", text m.persistedValue)]

def enumerationMembersToJson (ms : List EnumerationMember) : Json :=
  list memberToJson ms

def EnumerationSettings.toJson (s : EnumerationSettings) : Json :=
  .record [("enumeration", text s.enumeration), ("enumeration_id", index? s.target),
    ("enumeration_class", option text s.className), ("column_name", option text s.columnName),
    ("nullable", option .bool s.nullable), ("mappings", enumerationMembersToJson s.members),
    ("unsupported_requests", list (fun c : Capability => text c.name) s.unsupported)]

def MappedSettings.toJson (s : MappedSettings) : Json :=
  .record [("embedded_value", text s.embeddedValue), ("mapping_attribute", text s.member),
    ("column_name", text s.columnName), ("nullable", .bool s.nullable),
    ("max_length", option (nat ·.toNat) s.maxLength)]

def AttributeKind.toJson : AttributeKind → Json
  | column s => .record [("Plain", .record s.fields)]
  | asOf s => .record [("AsOf", .record s.fields)]
  | enumeration s => .record [("Enumeration", s.toJson)]
  | source => text "Source"
  | mapped s => .record [("Mapped", s.toJson)]

def FarEnd.toJson (e : FarEnd) : Json :=
  .record (e.type.fields ++ [("name", text e.name)])

def Attribute.toJson (a : Attribute) : Json :=
  .record [("name", text a.name), ("owner", nat a.owner), ("original_owner", index? a.originalOwner),
    ("inherited", .bool a.isInherited), ("data_type", a.dataType.toJson),
    ("owner_defaults", a.defaults.toJson), ("kind", a.kind.toJson),
    ("owning_relationship", index? (a.ownership.map (·.relationship))),
    ("owning_relationship_name", option text (a.ownership.bind (·.name))),
    ("reverse_relationship", option (·.toJson) (a.ownership.bind (·.farEnd)))]

/-! ### Relationships -/

def Join.toJson (j : Join) : Json :=
  .record [
    ("pairs", list (fun p : JoinPair =>
      .record [("this_attribute", text p.thisAttribute), ("related_attribute", text p.relatedAttribute)]) j.pairs),
    ("filters", texts j.filters), ("references_this", .bool j.referencesThis),
    ("references_related", .bool j.referencesRelated), ("other_classes", texts j.otherClasses)]

def Relationship.toJson (r : Relationship) : Json :=
  .record [("name", text r.name), ("owner", nat r.owner), ("original_owner", index? r.originalOwner),
    ("related_object_name", text r.relatedName), ("related", index? r.related),
    ("cardinality_key", option text r.cardinalityKey), ("cardinality", option (·.toJson) r.cardinality),
    ("query", option text r.query), ("join", r.join.toJson), ("reverse_name", option text r.reverseName),
    ("related_is_dependent", option .bool r.relatedIsDependent), ("order_by", option text r.orderBy),
    ("parameters", option text r.parameters), ("is_reverse_relationship", .bool r.isReverse),
    ("has_parent_container", .bool r.isDependent), ("reverse_of", index? (r.reversal.map (·.forward))),
    ("inherited", .bool r.isInherited)]

/-! ### Entities and interfaces -/

def NestedValue.toJson (n : NestedValue) : Json :=
  .record [("name", text n.name), ("type_name", text n.typeName), ("target", index? n.target)]

def Entity.toJson (e : Entity) : Json :=
  .record (("id", nat e.id) :: e.name.fields ++ [("kind", text e.kind.name), ("object_type", e.access.toJson),
    ("imported", .bool e.imported), ("super_class_name", option text e.superName),
    ("super_class", index? e.superEntity), ("defaults", e.defaults.toJson), ("attributes", list nat e.attributes),
    ("relationships", list nat e.relationships), ("source_attribute", index? e.source),
    ("interfaces", texts e.interfaces), ("nested_objects", list (·.toJson) e.nested),
    ("persisted_type", option (·.toJson) e.persistedType), ("members", enumerationMembersToJson e.members),
    ("state", text e.state.name)])

def Interface.toJson (i : Interface) : Json :=
  .record (i.name.fields ++ [("super_interfaces", texts i.superInterfaces),
    ("attributes", list (fun a : InterfaceAttribute =>
      .record [("name", text a.name), ("data_type", a.dataType.toJson), ("declared_by", text a.declaredBy)])
      i.attributes),
    ("as_of_attributes", list (·.toJson) i.asOfAttributes),
    ("relationships", list (fun r : InterfaceRelationship =>
      .record [("name", text r.name), ("related", text r.related), ("cardinality", r.cardinality.toJson)])
      i.relationships)])

def Graph.toJson (g : Graph) : Json :=
  .record [("objects", list (·.toJson) g.entities.toList),
    ("attributes", list (·.toJson) g.attributes.toList),
    ("relationships", list (·.toJson) g.relationships.toList),
    ("interfaces", .record (g.interfaces.entries.map fun (name, i) => (name, i.toJson)))]

end Metamodel
