import Mathlib.Data.List.Pairwise
import Metamodel.Proofs.Embedded.Columns
import Metamodel.Proofs.Resolution.Completion
import Metamodel.Proofs.Resolution.Integrity

/-!
# Columns of mapped attributes

A mapping is passed over if its column is that of an attribute of the object, so after the expansion of embedded values
no mapped attribute shares its column with another attribute that has one column (`separate_prepared`).  Inheritance
comes later and does not look at columns: it brings the attributes of the superclass with their columns, and gives the
column of the superclass to an attribute that is declared again without one.  These are the only ways in which a mapped
attribute can come to share its column with such an attribute (`boundAbove_of_resolve`).
-/

namespace Metamodel

namespace Attribute

/-- The object that declares the attribute, or that it is mapped for. -/
def origin (a : Attribute) : EntityId :=
  a.originalOwner.getD a.owner

/-- All columns of the attribute: one, or the two of a period of validity, as far as they are declared. -/
def columns (a : Attribute) : List String :=
  match a.asOfColumns with
  | some (start, stop) => start.toList ++ stop.toList
  | none => a.columnName.toList

/-- The two share no column, if one of them is mapped. -/
def Apart (a b : Attribute) : Prop :=
  a.isMapped = true ∨ b.isMapped = true → a.columnName ≠ b.columnName

instance : Std.Symm Apart :=
  ⟨fun _ _ h hmapped => (h hmapped.symm).symm⟩

/-- A merge leaves the column as it is, or takes that of the attribute of the superclass; a mapped attribute keeps its
own. -/
private theorem columnName_mergedWith (a t : Attribute) :
    (a.mergedWith t).1.columnName = a.columnName ∨
      a.isMapped = false ∧ (a.mergedWith t).1.columnName = t.columnName := by
  have hor : ∀ mine theirs : Option String, mine.or theirs = mine ∨ mine.or theirs = theirs := by
    intro mine theirs
    cases mine with
    | none => exact .inr rfl
    | some _ => exact .inl rfl
  unfold mergedWith
  split
  · unfold filledFrom
    split
    · rename_i mine theirs hmine htheirs
      simp only [columnName, isMapped, hmine, htheirs, true_and]
      exact hor _ _
    · rename_i hmine _
      simp [columnName, hmine]
    · rename_i mine theirs hmine htheirs
      simp only [columnName, isMapped, hmine, htheirs, true_and]
      exact hor _ _
    · exact .inl rfl
  · exact .inl rfl

end Attribute

namespace Graph

variable {d : Declarations} {g h g₀ : Graph} {o p : EntityId}

/-! ### Expansion -/

/-- A mapped attribute shares its column with no other attribute of its entity. -/
def Separate (g : Graph) : Prop :=
  ∀ o, (g.attributesOf o).Pairwise Attribute.Apart

private theorem Separate.columnName_ne (hg : g.Separate) {a b : Attribute} (ha : a ∈ g.attributesOf o)
    (hb : b ∈ g.attributesOf o) (hname : a.name ≠ b.name) (hmapped : a.isMapped = true) : a.columnName ≠ b.columnName :=
  (hg o).forall ha hb (fun heq => hname (congrArg _ heq)) (.inl hmapped)

private theorem separate_of_standing (hg : Standing 0 g) : g.Separate := by
  have hnone : ∀ a, (g.attributeAt a).isMapped = false := by
    intro a
    have hstage := hg.attribute_stage a
    unfold Attribute.stage at hstage
    split at hstage
    · omega
    · split at hstage
      · omega
      · rename_i hmapped
        exact Bool.eq_false_iff.2 hmapped
  refine fun o => List.pairwise_of_forall_mem_list fun a ha b hb hmapped => ?_
  obtain ⟨i, -, rfl⟩ := List.mem_map.1 ha
  obtain ⟨j, -, rfl⟩ := List.mem_map.1 hb
  rw [hnone, hnone] at hmapped
  simp at hmapped

/-- The attributes for an embedded value have new columns, one each. -/
theorem Separate.expandValue (hg : g.Separate) {owner : EntityId} (hlisted : g.Listed owner)
    (v : EmbeddedValueDeclaration) : (expandValue owner g v).1.Separate := by
  obtain ⟨taken, added, hexpands⟩ := expansion_expandValue hlisted v
  intro o
  rw [hexpands.adds.attributesOf]
  split
  · rename_i hown
    subst hown
    refine List.pairwise_append.2 ⟨hg o, ?_, fun a ha b hb _ heq => ?_⟩
    · refine (List.pairwise_map.1 hexpands.columns).imp fun {a b} hne => ?_
      exact fun _ => hne
    · exact hexpands.newColumn b hb (heq ▸ List.mem_map_of_mem ha)
  · rw [List.append_nil]
    exact hg o

theorem Separate.expandDeclared (hg : g.Separate) (hstanding : Standing 1 g) (d : Declarations)
    {object : EntityId × String} (howner : object.1 < g.entities.size) : (expandDeclared d g object).1.Separate := by
  unfold Graph.expandDeclared
  split
  · refine (gather_invariant (fun h => Advances 1 g h ∧ h.Separate) (fun h v _ hh => ?_) ⟨.refl hstanding, hg⟩).2
    have hsize : object.1 < h.entities.size := size_of_outline_eq hh.1.outline ▸ howner
    exact ⟨(keptByMapping_advances howner).expandValue hh.1 v, hh.2.expandValue
      ⟨hsize, fun o a ha => (hh.1.standing.intact.attribute_owned o a ha).1⟩ v⟩
  · exact hg

/-- So it is when objects go into inheritance. -/
theorem separate_prepared (hg : Standing 0 g) (d : Declarations) {declared : List (EntityId × String)}
    (hdeclared : declared.map (·.1) = g.idsOfKind .object) : (g.prepared d declared).Separate := by
  have hlinked := advances_linked hg declared
  refine (gather_invariant (fun h => Advances 1 _ h ∧ h.Separate) (fun h object hobject hh => ?_)
    ⟨.refl (hlinked.standing.mono (Nat.le_succ 0)), separate_of_standing hlinked.standing⟩).2
  have hid : object.1 ∈ g.idsOfKind .object := hdeclared ▸ List.mem_map_of_mem hobject
  have hsize := h.lt_size_of_mem_idsOfKind (hh.1.mem_idsOfKind (hlinked.mem_idsOfKind hid))
  exact ⟨hh.1.trans (advances_expandDeclared d hh.1.standing hsize), hh.2.expandDeclared hh.1.standing d hsize⟩

/-! ### Inheritance -/

/-- Above the object that `a` is from, an attribute of the name of `b` is bound to the column of `b`. -/
def BoundAbove (g : Graph) (a b : Attribute) : Prop :=
  ∃ p, (g.entity a.origin).superEntity = some p ∧
    ∃ t ∈ g.attributesOf p, t.name = b.name ∧ t.columnName = b.columnName

/-- The attribute is one of the object's own, and if its column is not, that is bound in `theirs` under its name. -/
structure IsOwn (g : Graph) (o : EntityId) (theirs : List Attribute) (m : Attribute) : Prop where
  origin : m.origin = o
  column : ∃ x ∈ g.attributesOf o, x.name = m.name ∧ x.isMapped = m.isMapped ∧
    (x.columnName = m.columnName ∨ m.isMapped = false ∧ ∃ t ∈ theirs, t.name = m.name ∧ t.columnName = m.columnName)

/-- The attribute is a copy of one of `theirs`. -/
structure IsCopy (theirs : List Attribute) (m : Attribute) : Prop where
  original : ∃ t ∈ theirs, m.origin = t.origin ∧ m.name = t.name ∧ m.isMapped = t.isMapped ∧ m.columnName = t.columnName

/-- An attribute that is filled keeps its column, or has got that of an attribute of its name; if it is mapped, it keeps
its column. -/
private theorem columnName_of_filled {defaults : MemberDefaults} {ownSource : Bool} {theirs : List MarkedAttribute}
    {x m : MarkedAttribute} (hf : (attributeBequest o defaults ownSource).Filled theirs x m) :
    m.value.columnName = x.value.columnName ∨ x.value.isMapped = false ∧
      ∃ t ∈ theirs, t.value.name = x.value.name ∧ t.value.columnName = m.value.columnName := by
  induction hf with
  | refl => exact .inl rfl
  | @merge a m t mem meets same _ ih =>
    obtain ⟨-, hvalue, hkind⟩ := attributeBequest_filled (.merge mem meets same (.refl _))
    have hname : ((attributeBequest o defaults ownSource).merge a t).1.value.name = a.value.name := by rw [hvalue]
    have hmapped := Attribute.isMapped_congr hkind
    rcases ih with hkeep | ⟨hnot, u, hu, hname', hcolumn⟩
    · rw [hkeep]
      exact (a.value.columnName_mergedWith t.value).imp_right fun ⟨hnot, hcolumn⟩ => ⟨hnot, t, mem, same, hcolumn.symm⟩
    · exact .inr ⟨hmapped ▸ hnot, u, hu, hname'.trans hname, hcolumn⟩

namespace Completes

variable (c : Completes g₀ g)

include c

private theorem isOwn_or_isCopy (ho : o ∈ g₀.idsOfKind .object) (hup : g₀.superOf o = some p) {m : Attribute}
    (hm : m ∈ g₀.settled.attributesOf o) :
    IsOwn g₀ o (g₀.settled.attributesOf p) m ∨ IsCopy (g₀.settled.attributesOf p) m := by
  rw [attributesOf_eq_map] at hm
  obtain ⟨m, hmem, rfl⟩ := List.mem_map.1 hm
  have habove : ∀ t ∈ (g₀.settled.membersOf p).attributes, t.value ∈ g₀.settled.attributesOf p := fun t ht => by
    rw [attributesOf_eq_map]
    exact List.mem_map_of_mem ht
  rcases c.attribute_own_or_copy ho hup hmem with ⟨x, hx, hfilled⟩ | ⟨t, ht, rfl⟩
  · obtain ⟨i, hi, rfl⟩ := List.mem_map.1 hx
    obtain ⟨-, hvalue, hkind⟩ := attributeBequest_filled hfilled
    have hname : m.value.name = (g₀.attributeAt i).name := by rw [hvalue]; rfl
    have hmapped : m.value.isMapped = (g₀.attributeAt i).isMapped := Attribute.isMapped_congr hkind
    refine .inl ⟨?_, g₀.attributeAt i, List.mem_map_of_mem hi, hname.symm, hmapped.symm, ?_⟩
    · rw [Attribute.origin, hvalue]
      show (g₀.attributeAt i).originalOwner.getD (g₀.attributeAt i).owner = o
      rw [c.pristine.attributes, (c.pristine.sound.attribute_owned o i hi).2]
      rfl
    · rcases columnName_of_filled hfilled with hkeep | ⟨hnot, t, ht, hsame, hcolumn⟩
      · exact .inl hkeep.symm
      · exact .inr ⟨hmapped.trans hnot, t.value, habove t ht, hsame.trans hname.symm, hcolumn⟩
  · exact .inr ⟨t.value, habove t ht, rfl, rfl, rfl, rfl⟩

/-- After inheritance, a mapped attribute shares its column only with what comes from above the one or the other. -/
private theorem boundAbove_settled (hseparate : g₀.Separate) (ho : o ∈ g₀.idsOfKind .object) :
    ∀ x ∈ g₀.settled.attributesOf o, ∀ y ∈ g₀.settled.attributesOf o, x.name ≠ y.name → x.isMapped = true →
      x.columnName = y.columnName → g₀.settled.BoundAbove x y ∨ g₀.settled.BoundAbove y x := by
  obtain ⟨chain, hchain⟩ := c.exists_chain ho
  induction hchain with
  | @top o htop =>
    intro x hx y hy hname hmapped hcolumn
    rw [attributesOf_eq_map, c.membersOf_of_top ho htop, ← attributesOf_eq_map] at hx hy
    exact absurd hcolumn (hseparate.columnName_ne hx hy hname hmapped)
  | @up o p chain hup rest ih =>
    intro x hx y hy hname hmapped hcolumn
    have hsuper : (g₀.settled.entity o).superEntity = some p := (c.superEntity_settled ho).trans hup
    rcases c.isOwn_or_isCopy ho hup hx with hx | ⟨t, ht, horigin, htname, htmapped, htcolumn⟩ <;>
      rcases c.isOwn_or_isCopy ho hup hy with hy | ⟨u, hu, horigin', huname, -, hucolumn⟩
    · -- Both are the object's own; the column of `x` is from the expansion, and that of `y` cannot be.
      obtain ⟨x₀, hx₀, hname₀, hmapped₀, hcolumn₀ | ⟨hnot, -⟩⟩ := hx.column
      · obtain ⟨y₀, hy₀, hname₁, -, hcolumn₁ | ⟨-, u, hu, huname, hucolumn⟩⟩ := hy.column
        · have hne := hseparate.columnName_ne hx₀ hy₀ (by rwa [hname₀, hname₁]) (hmapped₀.trans hmapped)
          exact absurd (hcolumn₀.trans (hcolumn.trans hcolumn₁.symm)) hne
        · exact .inl ⟨p, by rw [hx.origin, hsuper], u, hu, huname, hucolumn⟩
      · rw [hmapped] at hnot
        cases hnot
    · exact .inl ⟨p, by rw [hx.origin, hsuper], u, hu, huname.symm, hucolumn.symm⟩
    · exact .inr ⟨p, by rw [hy.origin, hsuper], t, ht, htname.symm, htcolumn.symm⟩
    · -- Both are copies, of attributes that share the column above.
      have habove := ih (mem_objects_of_superOf hup) t ht u hu (by rwa [← htname, ← huname]) (htmapped ▸ hmapped)
        (htcolumn.symm.trans (hcolumn.trans hucolumn))
      unfold BoundAbove at habove ⊢
      rwa [horigin, horigin', htname, huname, htcolumn, hucolumn]

/-- What was read off the graph after inheritance is still there in the end. -/
private theorem boundAbove_of_settled {i j : AttributeId}
    (h : g₀.settled.BoundAbove (g₀.settled.attributeAt i) (g₀.settled.attributeAt j)) :
    g.BoundAbove (g.attributeAt i) (g.attributeAt j) := by
  obtain ⟨p, hsuper, t, ht, hname, hcolumn⟩ := h
  obtain ⟨k, hk, rfl⟩ := List.mem_map.1 ht
  refine ⟨p, ?_, g.attributeAt k, List.mem_map_of_mem (c.attributeList_eq p ▸ hk), ?_, ?_⟩
  · rw [c.read_attributeAt Attribute.origin fun _ => rfl, c.entity_eq, c.reading.superEntity]
    exact hsuper
  · rw [c.name_attributeAt, c.name_attributeAt]
    exact hname
  · rw [c.read_attributeAt Attribute.columnName fun _ => rfl, c.read_attributeAt Attribute.columnName fun _ => rfl]
    exact hcolumn

private theorem boundAbove (hseparate : g₀.Separate) (ho : o ∈ g₀.idsOfKind .object) {i j : AttributeId}
    (hi : i ∈ (g.entity o).attributes) (hj : j ∈ (g.entity o).attributes) (hne : i ≠ j)
    (hmapped : (g.attributeAt i).isMapped = true)
    (hcolumn : (g.attributeAt i).columnName = (g.attributeAt j).columnName) :
    g.BoundAbove (g.attributeAt i) (g.attributeAt j) ∨ g.BoundAbove (g.attributeAt j) (g.attributeAt i) := by
  rw [c.attributeList_eq] at hi hj
  have hname : (g₀.settled.attributeAt i).name ≠ (g₀.settled.attributeAt j).name := by
    have hnames := (c.names_nodup ho).1
    rw [membersOf, List.map_map] at hnames
    exact fun heq => hne (List.inj_on_of_nodup_map hnames hi hj heq)
  rw [c.read_attributeAt Attribute.isMapped fun _ => rfl] at hmapped
  rw [c.read_attributeAt Attribute.columnName fun _ => rfl, c.read_attributeAt Attribute.columnName fun _ => rfl]
    at hcolumn
  have hsettled := c.boundAbove_settled hseparate ho _ (List.mem_map_of_mem hi) _ (List.mem_map_of_mem hj) hname hmapped
    hcolumn
  exact hsettled.imp c.boundAbove_of_settled c.boundAbove_of_settled

end Completes

/-- In a resolved graph, a mapped attribute of an object shares its column with another attribute that has one column
only by way of a superclass: above the object that one of the two is from, an attribute of the other's name is bound to
the column. -/
theorem boundAbove_of_resolve {config : Config} (hresolve : (d.resolve config).1 = .ok g)
    (ho : o ∈ g.idsOfKind .object) {i j : AttributeId} (hi : i ∈ (g.entity o).attributes)
    (hj : j ∈ (g.entity o).attributes) (hne : i ≠ j) (hmapped : (g.attributeAt i).isMapped = true)
    (hcolumn : (g.attributeAt i).columnName = (g.attributeAt j).columnName) :
    g.BoundAbove (g.attributeAt i) (g.attributeAt j) ∨ g.BoundAbove (g.attributeAt j) (g.attributeAt i) := by
  have c := (resolvesTo_of_resolve hresolve).toCompletes
  have hinterfaces := standing_registerInterfaces (standing_ofDeclarations config d) d
  have hstaged : Standing 0 (staged config d) := (advances_resolveEmbeddedValues hinterfaces).standing
  rw [c.idsOfKind_eq] at ho
  exact c.boundAbove (separate_prepared hstaged d (staged_spec config d).2) ho hi hj hne hmapped hcolumn

/-! ### A sample -/

/-- Parties have a city.  A person is a party that is valid for some time, and has a home, whose town and date are
mapped to the columns of the city and of the start of that time. -/
def people : Declarations where
  embeddedObjects := ⟨[("com.acme.Address",
    { name := ⟨"com.acme", "Address"⟩
      attributes := [{ name := "town", dataType := .string }, { name := "since", dataType := .timestamp }] })],
    by decide⟩
  objects := ⟨[
    ("com.acme.Party",
      { name := ⟨"com.acme", "Party"⟩
        attributes := [{ name := "id", dataType := .int, column := { primaryKey := true } },
          { name := "city", dataType := .string, column := { columnName := some "CITY" } }] }),
    ("com.acme.Person",
      { name := ⟨"com.acme", "Person"⟩
        superClass := some "Party"
        asOfAttributes := [{
          name := "valid"
          settings := { fromColumn := some "FROM_Z", toColumn := some "THRU_Z" } }]
        embeddedValues := [.mk "home" (some "Address") [⟨"town", "CITY", none⟩, ⟨"since", "FROM_Z", none⟩] []] })],
    by decide⟩

/-- The graph that the sample resolves to. -/
def peopleGraph : Graph :=
  (people.resolve .default).1.toOption.getD empty

private theorem peopleGraph_facts :
    (people.resolve .default).1.isOk = true ∧ 2 ∈ peopleGraph.idsOfKind .object ∧
      5 ∈ (peopleGraph.entity 2).attributes ∧ 8 ∈ (peopleGraph.entity 2).attributes ∧
      (peopleGraph.attributeAt 5).isMapped = true ∧
      (peopleGraph.attributeAt 5).columnName = (peopleGraph.attributeAt 8).columnName := by
  decide +kernel

private theorem resolve_people : (people.resolve .default).1 = .ok peopleGraph :=
  eq_ok_of_isOk peopleGraph_facts.1 empty

/-- The town of a person's home has the column of the city that the person inherits, and the date has a column of the
time that the person is valid. -/
theorem columns_of_people :
    (people.resolve .default).1 = .ok peopleGraph ∧ 2 ∈ peopleGraph.idsOfKind .object ∧
      (∃ i ∈ (peopleGraph.entity 2).attributes, ∃ j ∈ (peopleGraph.entity 2).attributes, i ≠ j ∧
        (peopleGraph.attributeAt i).isMapped = true ∧ (peopleGraph.attributeAt j).isInherited = true ∧
        "CITY" ∈ (peopleGraph.attributeAt i).columns ∧ "CITY" ∈ (peopleGraph.attributeAt j).columns) ∧
      ∃ i ∈ (peopleGraph.entity 2).attributes, ∃ j ∈ (peopleGraph.entity 2).attributes, i ≠ j ∧
        (peopleGraph.attributeAt i).isMapped = true ∧ (peopleGraph.attributeAt j).isAsOf = true ∧
        "FROM_Z" ∈ (peopleGraph.attributeAt i).columns ∧ "FROM_Z" ∈ (peopleGraph.attributeAt j).columns :=
  ⟨resolve_people, by decide +kernel⟩

/-- The column of the town is that of the city above. -/
theorem boundAbove_of_people :
    (people.resolve .default).1 = .ok peopleGraph ∧ 2 ∈ peopleGraph.idsOfKind .object ∧
      5 ∈ (peopleGraph.entity 2).attributes ∧ 8 ∈ (peopleGraph.entity 2).attributes ∧
      (peopleGraph.attributeAt 5).isMapped = true ∧
      (peopleGraph.attributeAt 5).columnName = (peopleGraph.attributeAt 8).columnName ∧
      (peopleGraph.BoundAbove (peopleGraph.attributeAt 5) (peopleGraph.attributeAt 8) ∨
        peopleGraph.BoundAbove (peopleGraph.attributeAt 8) (peopleGraph.attributeAt 5)) := by
  obtain ⟨-, hobject, htown, hcity, hmapped, hcolumn⟩ := peopleGraph_facts
  exact ⟨resolve_people, hobject, htown, hcity, hmapped, hcolumn,
    boundAbove_of_resolve resolve_people hobject htown hcity (by decide) hmapped hcolumn⟩

end Graph

end Metamodel
