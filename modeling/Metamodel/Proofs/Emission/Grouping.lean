import Mathlib.Data.List.Induction
import Metamodel.Proofs.Emission.Slots
import Metamodel.Proofs.Hierarchy.Ascent
import Metamodel.Proofs.Resolution.Integrity
import Metamodel.Proofs.Resolution.Completion

/-!
# Slots are hierarchies

The slot of an object holds the objects to emit whose topmost entity has the same name (`mem_slots_iff`), in the order
of their depth and, at equal depth, of their names (`pairwise_slotOf`).  In a resolved graph no way up repeats an object
(`neverRepeats`), so no way is cut, and names tell entities apart: a slot is then what lies below one topmost object,
whether this is imported or not, and whatever lies above an object in its slot comes before it.
-/

namespace Metamodel

/-! ### Groups by name -/

/-- Elements that are added to the list of their name one after another end up in a list for each name, in their
order. -/
private theorem NameMap.find?_foldl_insert {β : Type} (name : β → String) (bs : List β) (key : String) :
    (bs.foldl (fun m b => m.insert (name b) ((m.find? (name b)).getD [] ++ [b])) (.empty : NameMap (List β))).find? key =
      if key ∈ bs.map name then some (bs.filter fun b => name b == key) else none := by
  induction bs using List.reverseRecOn generalizing key with
  | nil => rfl
  | append_singleton bs b ih =>
    have hgroup : ((if name b ∈ bs.map name then some (bs.filter fun c => name c == name b) else none).getD []) =
        bs.filter fun c => name c == name b := by
      split
      · rfl
      · rename_i hnew
        refine (List.filter_eq_nil_iff.2 fun c hc hsame => hnew ?_).symm
        exact List.mem_map.2 ⟨c, hc, by simpa using hsame⟩
    rw [List.foldl_concat, NameMap.find?_insert, ih, ih, hgroup]
    by_cases heq : key = name b
    · simp [heq]
    · simp [heq, Ne.symm heq]

namespace Graph

variable {g : Graph} {id o : EntityId} {slot : List EntityId}

/-- The slot in which an object is emitted. -/
def slotOf (g : Graph) (id : EntityId) : List EntityId :=
  (g.emittedObjects.filter fun o => g.rootName o == g.rootName id).mergeSort g.slotOrder

private theorem mem_slotOf : o ∈ g.slotOf id ↔ o ∈ g.emittedObjects ∧ g.rootName o = g.rootName id := by
  rw [slotOf, List.mem_mergeSort, List.mem_filter, beq_iff_eq]

private theorem mem_entries_hierarchies {name : String} {ids : List EntityId} :
    (name, ids) ∈ g.hierarchies.entries ↔
      name ∈ g.emittedObjects.map g.rootName ∧ g.emittedObjects.filter (fun o => g.rootName o == name) = ids := by
  rw [← NameMap.find?_eq_some_iff, hierarchies, NameMap.find?_foldl_insert]
  split
  · rename_i hmem
    simp [hmem]
  · rename_i hnot
    simp [hnot]

theorem mem_slots_iff : slot ∈ g.slots ↔ ∃ id ∈ g.emittedObjects, slot = g.slotOf id := by
  constructor
  · intro h
    obtain ⟨ids, hids, rfl⟩ := List.mem_map.1 h
    obtain ⟨⟨name, _⟩, hentry, rfl⟩ := List.mem_map.1 hids
    obtain ⟨hname, hgroup⟩ := mem_entries_hierarchies.1 hentry
    obtain ⟨id, hid, rfl⟩ := List.mem_map.1 hname
    exact ⟨id, hid, by rw [slotOf, hgroup]⟩
  · rintro ⟨id, hid, rfl⟩
    have hentry := mem_entries_hierarchies.2 ⟨List.mem_map_of_mem hid, rfl⟩
    exact List.mem_map_of_mem (List.mem_map_of_mem hentry)

private theorem mem_slotOf_self (hid : id ∈ g.emittedObjects) : id ∈ g.slotOf id :=
  mem_slotOf.2 ⟨hid, rfl⟩

/-- The slot of an object is the only one that has it. -/
private theorem eq_slotOf (hslot : slot ∈ g.slots) (hid : id ∈ slot) : slot = g.slotOf id := by
  obtain ⟨o, -, rfl⟩ := mem_slots_iff.1 hslot
  rw [slotOf, slotOf, (mem_slotOf.1 hid).2]

private theorem mem_emittedObjects_of_mem_slots (hslot : slot ∈ g.slots) (hid : id ∈ slot) : id ∈ g.emittedObjects := by
  obtain ⟨o, -, rfl⟩ := mem_slots_iff.1 hslot
  exact (mem_slotOf.1 hid).1

/-- Slots come in the order of the names of their topmost entities. -/
private theorem pairwise_slots (g : Graph) :
    g.slots.Pairwise fun s t => ∀ a ∈ s, ∀ b ∈ t, g.rootName a < g.rootName b := by
  have hgroup : ∀ e ∈ g.hierarchies.entries, ∀ o ∈ e.2.mergeSort g.slotOrder, g.rootName o = e.1 := by
    rintro ⟨name, ids⟩ hentry o ho
    obtain ⟨-, rfl⟩ := mem_entries_hierarchies.1 hentry
    rw [List.mem_mergeSort, List.mem_filter, beq_iff_eq] at ho
    exact ho.2
  rw [slots, NameMap.values, List.map_map, List.pairwise_map]
  refine g.hierarchies.increasing.imp_of_mem fun hd he hlt a ha b hb => ?_
  rwa [hgroup _ hd a ha, hgroup _ he b hb]

/-! ### The order within a slot -/

/-- Objects by depth, name and index, in this order of weight. -/
private def slotCompare (g : Graph) : EntityId → EntityId → Ordering :=
  compareLex (compareOn g.depth) (compareLex (compareOn g.qualifiedName) compare)

private instance : Std.TransCmp (slotCompare g) := by
  unfold slotCompare
  infer_instance

private theorem slotOrder_eq (a b : EntityId) : g.slotOrder a b = (g.slotCompare a b).isLE :=
  rfl

private theorem slotOrder_trans (a b c : EntityId) (hab : g.slotOrder a b) (hbc : g.slotOrder b c) :
    g.slotOrder a c := by
  rw [slotOrder_eq] at hab hbc ⊢
  exact Std.TransCmp.isLE_trans hab hbc

private theorem slotOrder_total (a b : EntityId) : (g.slotOrder a b || g.slotOrder b a) = true := by
  have hswap : g.slotCompare b a = (g.slotCompare a b).swap := Std.OrientedCmp.eq_swap
  rw [slotOrder_eq, slotOrder_eq, hswap]
  cases g.slotCompare a b <;> rfl

/-- What comes first has the smaller depth, or the same depth and no greater name. -/
private theorem of_slotOrder {a b : EntityId} (h : g.slotOrder a b) :
    g.depth a < g.depth b ∨ g.depth a = g.depth b ∧ (g.qualifiedName a < g.qualifiedName b ∨
      g.qualifiedName a = g.qualifiedName b) := by
  rw [slotOrder, Ordering.isLE_then_iff_or, Ordering.isLE_then_iff_or, Nat.compare_eq_lt, Nat.compare_eq_eq] at h
  refine h.imp_right (And.imp_right fun hname => hname.imp ?_ ?_)
  · exact compareOfLessAndEq_eq_lt.1
  · exact fun h => Std.compare_eq_iff_eq.1 h.1

theorem pairwise_slotOf (g : Graph) (id : EntityId) : (g.slotOf id).Pairwise fun a b => g.slotOrder a b :=
  List.pairwise_mergeSort slotOrder_trans slotOrder_total _

private theorem nodup_slotOf (g : Graph) (id : EntityId) : (g.slotOf id).Nodup :=
  (List.mergeSort_perm _ _).nodup_iff.2 (g.nodup_emittedObjects.filter _)

/-- Of two members of a list that is in order, the one that must not come second comes first. -/
private theorem pair_sublist {r : EntityId → EntityId → Prop} {l : List EntityId} (hl : l.Pairwise r) {a b : EntityId}
    (ha : a ∈ l) (hb : b ∈ l) (hne : b ≠ a) (hnot : ¬ r a b) : [b, a].Sublist l := by
  obtain ⟨before, after, rfl⟩ := List.append_of_mem ha
  obtain ⟨-, hafter, -⟩ := List.pairwise_append.1 hl
  rcases List.mem_append.1 hb with hb | hb
  · exact (List.singleton_sublist.2 hb).append (List.singleton_sublist.2 List.mem_cons_self)
  · rcases List.mem_cons.1 hb with rfl | hb
    · exact absurd rfl hne
    · exact absurd ((List.pairwise_cons.1 hafter).1 b hb) hnot

/-- Two objects are emitted in one slot just if their topmost entities have the same name. -/
private theorem exists_slot_iff {a b : EntityId} (ha : a ∈ g.emittedObjects) (hb : b ∈ g.emittedObjects) :
    (∃ slot ∈ g.slots, a ∈ slot ∧ b ∈ slot) ↔ g.rootName a = g.rootName b := by
  constructor
  · rintro ⟨slot, hslot, hamem, hbmem⟩
    rw [eq_slotOf hslot hamem] at hbmem
    exact (mem_slotOf.1 hbmem).2.symm
  · intro hsame
    exact ⟨g.slotOf a, mem_slots_iff.2 ⟨a, ha, rfl⟩, mem_slotOf_self ha, mem_slotOf.2 ⟨hb, hsame.symm⟩⟩

/-! ### The way up in a resolved graph -/

namespace Completes

variable {g₀ : Graph} {p : EntityId} {way chain : List EntityId} (c : Completes g₀ g)

include c

/-- The way up along links goes up along names. -/
private theorem prefix_of_superChain (hid : id ∈ g₀.idsOfKind .object) (hchain : SuperChain g₀ id chain)
    (hway : (id :: way).IsChain g.LinksTo) : way <+: chain := by
  induction hchain generalizing way with
  | top htop =>
    cases way with
    | nil => exact List.prefix_rfl
    | cons p way =>
      obtain ⟨hup, -⟩ := List.isChain_cons_cons.1 hway
      rw [LinksTo, c.superEntity_eq hid] at hup
      exact absurd htop (superName_ne_none_of_superOf hup)
  | up hup rest ih =>
    cases way with
    | nil => exact List.nil_prefix
    | cons p way =>
      obtain ⟨hlink, hrest⟩ := List.isChain_cons_cons.1 hway
      rw [LinksTo, c.superEntity_eq hid] at hlink
      obtain rfl := Option.some.inj (hup.symm.trans hlink)
      exact (List.prefix_cons_inj _).2 (ih (mem_objects_of_superOf hup) hrest)

theorem neverRepeats (hid : id ∈ g₀.idsOfKind .object) : g.NeverRepeats id := by
  obtain ⟨chain, hchain⟩ := c.exists_chain hid
  intro way hway
  exact hchain.nodup.sublist ((List.prefix_cons_inj id).2 (c.prefix_of_superChain hid hchain hway)).sublist

private theorem depth_le (hid : id ∈ g₀.idsOfKind .object) : g.depth id ≤ g.entities.size :=
  depth_le_of_neverRepeats (c.neverRepeats hid)

private theorem mem_objects_of_reaches (hid : id ∈ g₀.idsOfKind .object) (h : Relation.ReflTransGen g.LinksTo id p) :
    p ∈ g₀.idsOfKind .object := by
  induction h with
  | refl => exact hid
  | tail _ hup ih =>
    rw [LinksTo, c.superEntity_eq ih] at hup
    exact mem_objects_of_superOf hup

private theorem endsAt (hid : id ∈ g₀.idsOfKind .object) : g.EndsAt id (g.hierarchyRoot id) :=
  (endsAt_iff (c.depth_le hid)).2 rfl

private theorem mem_objects_of_emitted (hid : id ∈ g.emittedObjects) : id ∈ g₀.idsOfKind .object := by
  rw [← c.idsOfKind_eq]
  exact (g.mem_emittedObjects.1 hid).1

end Completes

namespace ResolvesTo

variable {d : Declarations} {g₀ : Graph} {a b : EntityId} (c : ResolvesTo d g₀ g)

include c

theorem eq_of_qualifiedName_eq (ha : a ∈ g₀.idsOfKind .object) (hb : b ∈ g₀.idsOfKind .object)
    (h : g.qualifiedName a = g.qualifiedName b) : a = b := by
  rw [← c.idsOfKind_eq] at ha hb
  exact c.standing.intact.distinct_of_outline_eq c.outline_eq a (g.lt_size_of_mem_idsOfKind ha) b
    (g.lt_size_of_mem_idsOfKind hb) h

/-- Objects have topmost entities of one name just if they have the same. -/
private theorem rootName_eq_iff (ha : a ∈ g₀.idsOfKind .object) (hb : b ∈ g₀.idsOfKind .object) :
    g.rootName a = g.rootName b ↔ ∃ top, g.EndsAt a top ∧ g.EndsAt b top := by
  constructor
  · intro hsame
    have hroot := c.eq_of_qualifiedName_eq (c.mem_objects_of_reaches ha (c.endsAt ha).reaches)
      (c.mem_objects_of_reaches hb (c.endsAt hb).reaches) hsame
    exact ⟨g.hierarchyRoot a, c.endsAt ha, hroot ▸ c.endsAt hb⟩
  · rintro ⟨top, hatop, hbtop⟩
    rw [rootName, rootName, ← (endsAt_iff (c.depth_le ha)).1 hatop, ← (endsAt_iff (c.depth_le hb)).1 hbtop]

/-- What lies above an object and is emitted comes before it in its slot. -/
private theorem pair_sublist_slotOf (ha : a ∈ g.emittedObjects) (habove : Relation.TransGen g.LinksTo a b)
    (himported : (g.entity b).imported = false) : [b, a].Sublist (g.slotOf a) := by
  have hobject := c.mem_objects_of_emitted ha
  have hb : b ∈ g.emittedObjects := by
    rw [mem_emittedObjects, c.idsOfKind_eq]
    exact ⟨c.mem_objects_of_reaches hobject habove.to_reflTransGen, himported⟩
  have hroot : g.rootName b = g.rootName a :=
    congrArg g.qualifiedName (depth_le_of_reaches (c.depth_le hobject) habove.to_reflTransGen).2
  have hlt := depth_lt_of_reaches (c.depth_le hobject) habove
  refine pair_sublist (g.pairwise_slotOf a) (mem_slotOf_self ha) (mem_slotOf.2 ⟨hb, hroot⟩) ?_ fun horder => ?_
  · rintro rfl
    exact Nat.lt_irrefl _ hlt
  · rcases of_slotOrder horder with hless | ⟨hsame, -⟩ <;> omega

/-- Objects of a slot are in the order of their depth and then of their names, which differ. -/
private theorem pairwise_slotOf_lt (id : EntityId) :
    (g.slotOf id).Pairwise fun a b =>
      g.depth a < g.depth b ∨ g.depth a = g.depth b ∧ g.qualifiedName a < g.qualifiedName b := by
  refine ((g.pairwise_slotOf id).and (g.nodup_slotOf id)).imp_of_mem fun {a b} ha hb horder => ?_
  refine (of_slotOrder horder.1).imp_right (And.imp_right fun hname => hname.resolve_right fun hsame => horder.2 ?_)
  exact c.eq_of_qualifiedName_eq (c.mem_objects_of_emitted (mem_slotOf.1 ha).1)
    (c.mem_objects_of_emitted (mem_slotOf.1 hb).1) hsame

end ResolvesTo

/-! ### The slots of a resolved graph -/

/-- The slots of a resolved graph hold every object that is not imported once, and nothing else.  Objects share a slot
just if their ways up end at the same object.  No slot is empty, and slots come in strictly increasing order of the
names of these ends.  In a slot every object comes after those above it that are not imported, and objects of one depth
come in the order of their names. -/
theorem slots_of_resolve {d : Declarations} {config : Config} (hresolve : (d.resolve config).1 = .ok g) :
    (∀ id, g.slots.flatten.count id = if id ∈ g.idsOfKind .object ∧ (g.entity id).imported = false then 1 else 0) ∧
      (∀ a ∈ g.emittedObjects, ∀ b ∈ g.emittedObjects,
        (∃ slot ∈ g.slots, a ∈ slot ∧ b ∈ slot) ↔ ∃ top, g.EndsAt a top ∧ g.EndsAt b top) ∧
      (∀ slot ∈ g.slots, slot ≠ []) ∧
      (g.slots.Pairwise fun s t => ∀ a ∈ s, ∀ b ∈ t,
        ∃ top top', g.EndsAt a top ∧ g.EndsAt b top' ∧ g.qualifiedName top < g.qualifiedName top') ∧
      ∀ slot ∈ g.slots,
        (∀ a ∈ slot, ∀ b, Relation.TransGen g.LinksTo a b → (g.entity b).imported = false → [b, a].Sublist slot) ∧
          slot.Pairwise fun a b =>
            g.depth a < g.depth b ∨ g.depth a = g.depth b ∧ g.qualifiedName a < g.qualifiedName b := by
  obtain ⟨g₀, c⟩ := exists_resolvesTo_of_resolve hresolve
  refine ⟨fun id => ?_, fun a ha b hb => ?_, fun slot hslot => ?_, ?_, fun slot hslot => ⟨fun a ha b => ?_, ?_⟩⟩
  · rw [g.flatten_slots.count_eq, g.nodup_emittedObjects.count]
    exact if_congr g.mem_emittedObjects rfl rfl
  · rw [exists_slot_iff ha hb]
    exact c.rootName_eq_iff (c.mem_objects_of_emitted ha) (c.mem_objects_of_emitted hb)
  · obtain ⟨id, hid, rfl⟩ := mem_slots_iff.1 hslot
    exact List.ne_nil_of_mem (mem_slotOf_self hid)
  · refine g.pairwise_slots.imp_of_mem fun {s t} hs ht hlt a ha b hb => ?_
    have haobject := c.mem_objects_of_emitted (mem_emittedObjects_of_mem_slots hs ha)
    have hbobject := c.mem_objects_of_emitted (mem_emittedObjects_of_mem_slots ht hb)
    exact ⟨_, _, c.endsAt haobject, c.endsAt hbobject, hlt a ha b hb⟩
  · rw [eq_slotOf hslot ha]
    exact c.pair_sublist_slotOf (mem_emittedObjects_of_mem_slots hslot ha)
  · obtain ⟨id, -, rfl⟩ := mem_slots_iff.1 hslot
    exact c.pairwise_slotOf_lt id

/-- A bus is a car; cars and trucks are vehicles, which are imported. -/
def yard : Declarations where
  objects := ⟨[
    ("yard.Boat", { name := ⟨"yard", "Boat"⟩ }),
    ("yard.Bus", { name := ⟨"yard", "Bus"⟩, superClass := some "Car" }),
    ("yard.Car", { name := ⟨"yard", "Car"⟩, superClass := some "Vehicle" }),
    ("yard.Truck", { name := ⟨"yard", "Truck"⟩, superClass := some "Vehicle" }),
    ("yard.Vehicle",
      { name := ⟨"yard", "Vehicle"⟩
        imported := true
        attributes := [{ name := "id", dataType := .int, column := { primaryKey := true } }] })], by decide⟩

/-- The graph that the sample resolves to. -/
def yardGraph : Graph :=
  (yard.resolve .default).1.toOption.getD empty

private theorem yardGraph_facts :
    (yard.resolve .default).1.isOk = true ∧ yardGraph.emittedObjects = [0, 1, 2, 3] ∧
      (yardGraph.entity 4).imported = true ∧ (yardGraph.entity 2).imported = false ∧
      (yardGraph.entity 1).superEntity = some 2 ∧ (yardGraph.entity 2).superEntity = some 4 ∧
      (yardGraph.entity 3).superEntity = some 4 ∧ (yardGraph.entity 4).superEntity = none := by
  decide +kernel

/-- Bus and truck share a slot below the imported class, which is in none, and the car comes before the bus. -/
theorem slots_of_yard :
    (yard.resolve .default).1 = .ok yardGraph ∧ yardGraph.slots.flatten.count 4 = 0 ∧
      (∃ slot ∈ yardGraph.slots, 1 ∈ slot ∧ 3 ∈ slot) ∧ ∀ slot ∈ yardGraph.slots, 1 ∈ slot → [2, 1].Sublist slot := by
  obtain ⟨hok, hemitted, himported, hcar, hbus, hcarUp, htruck, htop⟩ := yardGraph_facts
  have hresolve : (yard.resolve .default).1 = .ok yardGraph := eq_ok_of_isOk hok empty
  obtain ⟨hcount, hshares, -, -, hwithin⟩ := slots_of_resolve hresolve
  refine ⟨hresolve, ?_, ?_, fun slot hslot hmem => (hwithin slot hslot).1 1 hmem 2 (.single hbus) hcar⟩
  · rw [hcount, himported]
    simp
  · refine (hshares 1 (by simp [hemitted]) 3 (by simp [hemitted])).2 ⟨4, ⟨?_, htop⟩, ⟨.single htruck, htop⟩⟩
    exact .tail (.single hbus) hcarUp

end Graph

end Metamodel
