import Metamodel.Interface.Flatten
import Metamodel.Proofs.Graph.Elements
import Metamodel.Proofs.Interface.Cycles

/-!
# What a flattened interface demands

An interface that is flattened without an error demands the members of every interface above it: where a member of the
same name is there already, the two agree, and otherwise there is an error.  A relationship that is not sound is left
out in silence, but it is reported with the interface that declares it.  So if all interfaces are registered without an
error, each demands whatever it can reach declares (`demands_of_clean`).  Of several interfaces of one qualified name
the last is registered (`find?_registerInterfaces`).
-/

namespace Metamodel

/-- The relationship has a cardinality, and leads to an object or to an interface. -/
structure InterfaceRelationshipDeclaration.IsSound (d : Declarations) (g : Graph)
    (r : InterfaceRelationshipDeclaration) : Prop where
  cardinality : (Cardinality.ofKey? r.cardinality).isSome
  related : (g.lookup r.relatedObject .object).isSome ∨ (d.interfaceNamed? r.relatedObject).isSome

/-- Graphs of one outline know the same objects. -/
theorem InterfaceRelationshipDeclaration.IsSound.congr {d : Declarations} {g h : Graph} (eq : h.outline = g.outline)
    {r : InterfaceRelationshipDeclaration} (hr : r.IsSound d g) : r.IsSound d h where
  cardinality := hr.cardinality
  related := by
    rw [Graph.lookup_congr eq]
    exact hr.related

namespace Interface

/-- The interface demands an attribute of that name and type. -/
def HasAttribute (i : Interface) (a : InterfaceAttributeDeclaration) : Prop :=
  ∃ b ∈ i.attributes, b.name = a.name ∧ b.dataType = a.dataType

def HasAsOf (i : Interface) (a : InterfaceAsOfDeclaration) : Prop :=
  ∃ b ∈ i.asOfAttributes, b.name = a.name ∧ b.isProcessingDate = a.isProcessingDate

/-- The interface demands a relationship of that name, with the cardinality that the key denotes. -/
def HasRelationship (i : Interface) (r : InterfaceRelationshipDeclaration) : Prop :=
  ∃ c, Cardinality.ofKey? r.cardinality = some c ∧ ∃ b ∈ i.relationships, b.name = r.name ∧ b.cardinality = c

/-- Whatever the declaration has, the interface demands. -/
structure Demands (i : Interface) (source : InterfaceDeclaration) : Prop where
  attributes : ∀ a ∈ source.attributes, i.HasAttribute a
  asOfAttributes : ∀ a ∈ source.asOfAttributes, i.HasAsOf a
  relationships : ∀ r ∈ source.relationships, i.HasRelationship r

/-! ### Growth -/

/-- `j` is the same interface with more members. -/
structure Grows (i j : Interface) : Prop where
  name : j.name = i.name
  superInterfaces : j.superInterfaces = i.superInterfaces
  attributes : i.attributes ⊆ j.attributes
  asOfAttributes : i.asOfAttributes ⊆ j.asOfAttributes
  relationships : i.relationships ⊆ j.relationships

variable {i j k : Interface} {source : InterfaceDeclaration} {d : Declarations} {g : Graph} {declaredBy : String}

namespace Grows

theorem refl (i : Interface) : Grows i i :=
  ⟨rfl, rfl, List.Subset.refl _, List.Subset.refl _, List.Subset.refl _⟩

theorem trans (first : Grows i j) (second : Grows j k) : Grows i k where
  name := second.name.trans first.name
  superInterfaces := second.superInterfaces.trans first.superInterfaces
  attributes := List.Subset.trans first.attributes second.attributes
  asOfAttributes := List.Subset.trans first.asOfAttributes second.asOfAttributes
  relationships := List.Subset.trans first.relationships second.relationships

private theorem hasAttribute (hij : Grows i j) {a : InterfaceAttributeDeclaration} (h : i.HasAttribute a) :
    j.HasAttribute a := by
  obtain ⟨b, hb, hab⟩ := h
  exact ⟨b, hij.attributes hb, hab⟩

private theorem hasAsOf (hij : Grows i j) {a : InterfaceAsOfDeclaration} (h : i.HasAsOf a) : j.HasAsOf a := by
  obtain ⟨b, hb, hab⟩ := h
  exact ⟨b, hij.asOfAttributes hb, hab⟩

private theorem hasRelationship (hij : Grows i j) {r : InterfaceRelationshipDeclaration} (h : i.HasRelationship r) :
    j.HasRelationship r := by
  obtain ⟨c, hc, b, hb, hab⟩ := h
  exact ⟨c, hc, b, hij.relationships hb, hab⟩

private theorem demands (hij : Grows i j) (h : i.Demands source) : j.Demands source where
  attributes a ha := hij.hasAttribute (h.attributes a ha)
  asOfAttributes a ha := hij.hasAsOf (h.asOfAttributes a ha)
  relationships r hr := hij.hasRelationship (h.relationships r hr)

variable {α : Type} {step : Interface → α → Found Interface} {as : List α}

theorem gather (hstep : ∀ i a, Grows i (step i a).1) (as : List α) (i : Interface) :
    Grows i (Metamodel.gather step i as).1 :=
  gather_invariant (Grows i) (fun j a _ h => h.trans (hstep j a)) (.refl i)

/-- What a clean step does for its element is there in the end, if growth keeps it. -/
theorem forall_gather {q : α → Interface → Prop} (hstep : ∀ i a, Grows i (step i a).1)
    (keep : ∀ a j k, Grows j k → q a j → q a k)
    (done : ∀ j, Grows i j → ∀ a ∈ as, Clean (step j a).2 → q a (step j a).1)
    (clean : Clean (Metamodel.gather step i as).2) : ∀ a ∈ as, q a (Metamodel.gather step i as).1 :=
  forall_of_clean_gather (Grows i) q (fun j a _ hj => hj.trans (hstep j a))
    (fun j a _ b _ hb => keep b j _ (hstep j a) hb) (fun j a ha hj => done j hj a ha) (.refl i) clean

end Grows

/-! ### One member -/

private theorem grows_withAttribute (i : Interface) (a : InterfaceAttributeDeclaration) :
    Grows i (withAttribute declaredBy i a).1 := by
  unfold withAttribute
  split
  · exact ⟨rfl, rfl, List.subset_append_left _ _, List.Subset.refl _, List.Subset.refl _⟩
  · split <;> exact .refl i

/-- An attribute is added, or agrees with the one that is there. -/
private theorem hasAttribute_withAttribute {a : InterfaceAttributeDeclaration}
    (clean : Clean (withAttribute declaredBy i a).2) : (withAttribute declaredBy i a).1.HasAttribute a := by
  unfold withAttribute at clean ⊢
  split at clean
  · exact ⟨_, List.mem_append_right _ (List.mem_singleton_self _), rfl, rfl⟩
  · rename_i b hb
    split at clean
    · rename_i hagree
      rw [if_pos hagree]
      exact ⟨b, List.mem_of_find?_eq_some hb, by simpa using List.find?_some hb, hagree⟩
    · exact absurd clean (not_clean_singleton rfl)

private theorem grows_withAsOf (i : Interface) (a : InterfaceAsOfDeclaration) : Grows i
    (withAsOf declaredBy i a).1 := by
  unfold withAsOf
  split
  · exact ⟨rfl, rfl, List.Subset.refl _, List.subset_append_left _ _, List.Subset.refl _⟩
  · split <;> exact .refl i

private theorem hasAsOf_withAsOf {a : InterfaceAsOfDeclaration} (clean : Clean (withAsOf declaredBy i a).2) :
    (withAsOf declaredBy i a).1.HasAsOf a := by
  unfold withAsOf at clean ⊢
  split at clean
  · exact ⟨_, List.mem_append_right _ (List.mem_singleton_self _), rfl, rfl⟩
  · rename_i b hb
    split at clean
    · rename_i hagree
      rw [if_pos hagree]
      exact ⟨b, List.mem_of_find?_eq_some hb, by simpa using List.find?_some hb, hagree⟩
    · exact absurd clean (not_clean_singleton rfl)

private theorem grows_withRelationship (i : Interface) (r : InterfaceRelationshipDeclaration) :
    Grows i (withRelationship d g declaredBy i r).1 := by
  unfold withRelationship
  dsimp only
  split
  · exact .refl i
  · split
    · exact .refl i
    · split
      · exact ⟨rfl, rfl, List.Subset.refl _, List.Subset.refl _, List.subset_append_left _ _⟩
      · split <;> exact .refl i

/-- A relationship is sound if it can be taken over. -/
private theorem isSound_iff {r : InterfaceRelationshipDeclaration} :
    r.IsSound d g ↔ (∃ c, Cardinality.ofKey r.cardinality = .ok c) ∧
      (((g.lookup r.relatedObject .object).map g.qualifiedName).or
        ((d.interfaceNamed? r.relatedObject).map (·.qualifiedName))).isSome := by
  have hkey : (Cardinality.ofKey? r.cardinality).isSome ↔ ∃ c, Cardinality.ofKey r.cardinality = .ok c := by
    unfold Cardinality.ofKey
    cases Cardinality.ofKey? r.cardinality <;> simp
  rw [Option.isSome_or, Bool.or_eq_true, Option.isSome_map, Option.isSome_map, ← hkey]
  exact ⟨fun h => ⟨h.cardinality, h.related⟩, fun h => ⟨h.1, h.2⟩⟩

/-- A relationship that cannot be taken over is an error in the interface that declares it, and only there.  Otherwise
the relationship is added, or agrees with the one that is there. -/
private theorem hasRelationship_withRelationship {r : InterfaceRelationshipDeclaration}
    (clean : Clean (withRelationship d g declaredBy i r).2) :
    (declaredBy = i.qualifiedName → r.IsSound d g) ∧
      (r.IsSound d g → (withRelationship d g declaredBy i r).1.HasRelationship r) := by
  have hreported : ∀ {issue : Issue}, issue.isError = true →
      Clean (if declaredBy = i.qualifiedName then [issue] else []) → declaredBy ≠ i.qualifiedName := by
    intro issue herror hclean hown
    rw [if_pos hown] at hclean
    exact not_clean_singleton herror hclean
  unfold withRelationship at clean ⊢
  dsimp only at clean ⊢
  cases hkey : Cardinality.ofKey r.cardinality with
  | error e =>
    simp only [hkey] at clean
    refine ⟨fun hown => absurd hown (hreported rfl clean), fun hsound => ?_⟩
    obtain ⟨c, hc⟩ := (isSound_iff.1 hsound).1
    rw [hkey] at hc
    cases hc
  | ok c =>
    simp only [hkey] at clean ⊢
    split at clean
    · rename_i hnone
      refine ⟨fun hown => absurd hown (hreported rfl clean), fun hsound => ?_⟩
      have hrelated := (isSound_iff.1 hsound).2
      rw [hnone] at hrelated
      cases hrelated
    · rename_i related hrelated
      have hsound : r.IsSound d g := isSound_iff.2 ⟨⟨c, hkey⟩, by rw [hrelated]; rfl⟩
      have hc : Cardinality.ofKey? r.cardinality = some c := by
        obtain ⟨c', hc'⟩ := Option.isSome_iff_exists.1 hsound.cardinality
        rw [Cardinality.ofKey, hc'] at hkey
        rw [hc', Except.ok.inj hkey]
      refine ⟨fun _ => hsound, fun _ => ⟨c, hc, ?_⟩⟩
      split at clean
      · exact ⟨_, List.mem_append_right _ (List.mem_singleton_self _), rfl, rfl⟩
      · rename_i b hb
        split at clean
        · rename_i hagree
          rw [if_pos hagree]
          exact ⟨b, List.mem_of_find?_eq_some hb, by simpa using List.find?_some hb, hagree⟩
        · exact absurd clean (not_clean_singleton rfl)

/-! ### One declaration -/

private theorem grows_withMembersOf (i : Interface) (source : InterfaceDeclaration) :
    Grows i (withMembersOf d g i source).1 := by
  simp only [withMembersOf, Found.andThen_eq]
  exact ((Grows.gather grows_withAttribute _ i).trans (.gather grows_withAsOf _ _)).trans
    (.gather grows_withRelationship _ _)

/-- The members of one declaration: its relationships must be sound if the interface is declared there, and if they are,
all of its members are demanded. -/
private theorem demands_withMembersOf (clean : Clean (withMembersOf d g i source).2) :
    (source.qualifiedName = i.qualifiedName → ∀ r ∈ source.relationships, r.IsSound d g) ∧
      ((∀ r ∈ source.relationships, r.IsSound d g) → (withMembersOf d g i source).1.Demands source) := by
  simp only [withMembersOf, Found.andThen_eq, clean_append] at clean ⊢
  obtain ⟨⟨hattributes, hasOf⟩, hrelationships⟩ := clean
  let i₁ := (gather (withAttribute source.qualifiedName) i source.attributes).1
  let i₂ := (gather (withAsOf source.qualifiedName) i₁ source.asOfAttributes).1
  let i₃ := (gather (withRelationship d g source.qualifiedName) i₂ source.relationships).1
  have hgrows₁ : Grows i i₁ := .gather grows_withAttribute _ i
  have hgrows₂ : Grows i₁ i₂ := .gather grows_withAsOf _ i₁
  have hgrows₃ : Grows i₂ i₃ := .gather grows_withRelationship _ i₂
  have hall₁ : ∀ a ∈ source.attributes, i₁.HasAttribute a :=
    Grows.forall_gather (q := fun a j => j.HasAttribute a) grows_withAttribute (fun _ _ _ hjk => hjk.hasAttribute)
      (fun _ _ _ _ => hasAttribute_withAttribute) hattributes
  have hall₂ : ∀ a ∈ source.asOfAttributes, i₂.HasAsOf a :=
    Grows.forall_gather (q := fun a j => j.HasAsOf a) grows_withAsOf (fun _ _ _ hjk => hjk.hasAsOf)
      (fun _ _ _ _ => hasAsOf_withAsOf) hasOf
  have hall₃ : ∀ r ∈ source.relationships, (source.qualifiedName = i.qualifiedName → r.IsSound d g) ∧
      (r.IsSound d g → i₃.HasRelationship r) := by
    refine Grows.forall_gather (q := fun r j => (source.qualifiedName = i.qualifiedName → r.IsSound d g) ∧
      (r.IsSound d g → j.HasRelationship r)) grows_withRelationship
      (fun r j k hjk h => ⟨h.1, fun hsound => hjk.hasRelationship (h.2 hsound)⟩) (fun j hj r _ hclean => ?_)
      hrelationships
    have hname : j.qualifiedName = i.qualifiedName :=
      congrArg TypeName.qualified ((hgrows₁.trans hgrows₂).trans hj).name
    rw [← hname]
    exact hasRelationship_withRelationship hclean
  refine ⟨fun hown r hr => (hall₃ r hr).1 hown, fun hsound => ⟨fun a ha => ?_, fun a ha => ?_, fun r hr => ?_⟩⟩
  · exact hgrows₃.hasAttribute (hgrows₂.hasAttribute (hall₁ a ha))
  · exact hgrows₃.hasAsOf (hall₂ a ha)
  · exact (hall₃ r hr).2 (hsound r hr)

/-! ### All declarations -/

/-- A flattened interface, if there is no error, demands the members of each declaration that it is made of whose
relationships are sound.  Its own are. -/
private theorem demands_flatten {decl : InterfaceDeclaration} (clean : Clean (flatten d g decl).2) :
    (flatten d g decl).1.name = decl.name ∧ (∀ r ∈ decl.relationships, r.IsSound d g) ∧
      ∀ source ∈ decl :: d.superInterfacesOf decl, (∀ r ∈ source.relationships, r.IsSound d g) →
        (flatten d g decl).1.Demands source := by
  unfold flatten at clean ⊢
  dsimp only at clean ⊢
  have hall := Grows.forall_gather (q := fun (source : InterfaceDeclaration) j =>
      (source.qualifiedName = decl.qualifiedName → ∀ r ∈ source.relationships, r.IsSound d g) ∧
        ((∀ r ∈ source.relationships, r.IsSound d g) → j.Demands source))
    grows_withMembersOf (fun _ _ _ hjk h => ⟨h.1, fun hsound => hjk.demands (h.2 hsound)⟩)
    (fun j hj source _ hclean => ?_) clean
  · refine ⟨(Grows.gather grows_withMembersOf _ _).name, ?_, fun source hsource => (hall source hsource).2⟩
    exact (hall decl List.mem_cons_self).1 rfl
  · have hname : j.qualifiedName = decl.qualifiedName := congrArg TypeName.qualified hj.name
    rw [← hname]
    exact demands_withMembersOf hclean

/-- The interface is what the declaration is flattened to: it lists all interfaces above the declaration, and demands
its members. -/
structure Represents (d : Declarations) (decl : InterfaceDeclaration) (i : Interface) : Prop where
  name : i.name = decl.name
  superInterfaces : i.superInterfaces = (d.superInterfacesOf decl).map (·.qualifiedName)
  demands : i.Demands decl

theorem represents_flatten {decl : InterfaceDeclaration} (clean : Clean (flatten d g decl).2) :
    Represents d decl (flatten d g decl).1 := by
  obtain ⟨hname, hsound, hdemands⟩ := demands_flatten clean
  exact ⟨hname, (Grows.gather grows_withMembersOf _ _).superInterfaces, hdemands decl List.mem_cons_self hsound⟩

/-! ### Issues -/

/-- The issue is an error, and does not speak of a cycle. -/
def IsFlaw (x : Issue) : Prop :=
  x.isError = true ∧ ¬ Declarations.IsCircular x

private theorem isFlaw_error {name member message : String} (h : ¬ message.startsWith "Circular dependency") :
    IsFlaw (.error .interfaces .schema name (some member) message) :=
  ⟨rfl, h⟩

private theorem not_startsWith_of_ofKey {key : String} {e : Error} (h : Cardinality.ofKey key = .error e) :
    ¬ e.message.startsWith "Circular dependency" := by
  unfold Cardinality.ofKey at h
  split at h
  · cases h
  · rw [← Except.error.inj h]
    show ¬ ("unknown cardinality '" ++ key ++ _).startsWith "Circular dependency"
    simp

private theorem isFlaw_withAttribute {a : InterfaceAttributeDeclaration} :
    ∀ x ∈ (withAttribute declaredBy i a).2, IsFlaw x := by
  intro x hx
  unfold withAttribute at hx
  split at hx
  · cases hx
  · split at hx
    · cases hx
    · rw [List.mem_singleton.1 hx]
      exact isFlaw_error (by simp)

private theorem isFlaw_withAsOf {a : InterfaceAsOfDeclaration} : ∀ x ∈ (withAsOf declaredBy i a).2, IsFlaw x := by
  intro x hx
  unfold withAsOf at hx
  split at hx
  · cases hx
  · split at hx
    · cases hx
    · rw [List.mem_singleton.1 hx]
      exact isFlaw_error (by simp)

private theorem isFlaw_withRelationship {r : InterfaceRelationshipDeclaration} :
    ∀ x ∈ (withRelationship d g declaredBy i r).2, IsFlaw x := by
  have own : ∀ y : Issue, IsFlaw y → ∀ x ∈ if declaredBy = i.qualifiedName then [y] else [], IsFlaw x := by
    intro y hy x hx
    split at hx
    · rwa [List.mem_singleton.1 hx]
    · cases hx
  intro x hx
  unfold withRelationship at hx
  dsimp only at hx
  split at hx
  · rename_i e he
    exact own _ (isFlaw_error (not_startsWith_of_ofKey he)) x hx
  · split at hx
    · exact own _ (isFlaw_error (by simp)) x hx
    · split at hx
      · cases hx
      · split at hx
        · cases hx
        · rw [List.mem_singleton.1 hx]
          exact isFlaw_error (by simp)

/-- Flattening finds flaws of members only. -/
theorem isFlaw_flatten {decl : InterfaceDeclaration} : ∀ x ∈ (flatten d g decl).2, IsFlaw x := by
  unfold flatten
  dsimp only
  refine forall_issue_gather (fun i source _ x hx => ?_) _
  simp only [withMembersOf, Found.andThen_eq, List.mem_append] at hx
  rcases hx with (hx | hx) | hx
  · exact forall_issue_gather (fun _ _ _ => isFlaw_withAttribute) _ x hx
  · exact forall_issue_gather (fun _ _ _ => isFlaw_withAsOf) _ x hx
  · exact forall_issue_gather (fun _ _ _ => isFlaw_withRelationship) _ x hx

end Interface

/-! ### Registration -/

namespace Graph

variable {d : Declarations} {k h : Graph} {e : String × InterfaceDeclaration}

/-- There is an interface under the key of the entry.  The relationships that it declares are sound, and it demands the
members of each interface above it whose relationships are. -/
def Registers (d : Declarations) (k h : Graph) (e : String × InterfaceDeclaration) : Prop :=
  ∃ i, h.interfaces.find? e.1 = some i ∧ (∀ r ∈ e.2.relationships, r.IsSound d k) ∧
    ∀ source ∈ e.2 :: d.superInterfacesOf e.2, (∀ r ∈ source.relationships, r.IsSound d k) → i.Demands source

/-- An interface that can be flattened is registered if there is nothing wrong with it.  Else the graph stays as it
is. -/
theorem registerInterface_cases (d : Declarations) (cyclic : List String) (h : Graph)
    (e : String × InterfaceDeclaration) :
    (Interface.flatten d h e.2).2 = [] ∧
        (registerInterface d cyclic h e).1 = h.addInterface (Interface.flatten d h e.2).1 ∨
      (registerInterface d cyclic h e).1 = h ∧ (e.1 ∉ cyclic → d.IsLinked e.1 → e ∈ d.interfaces.entries →
        (registerInterface d cyclic h e).2 = (Interface.flatten d h e.2).2 ∧ (Interface.flatten d h e.2).2 ≠ []) := by
  unfold registerInterface
  dsimp only
  split
  · rename_i hskip
    refine .inr ⟨rfl, fun hcyclic hlinked he => ?_⟩
    rw [Bool.or_eq_true, List.contains_iff_mem, List.any_eq_true] at hskip
    obtain ⟨s, hs, hnone⟩ := hskip.resolve_left hcyclic
    have hsome := hlinked e.2 (d.interfaces.find?_eq_some_iff.2 he) s hs
    rw [Option.isNone_iff_eq_none.1 hnone] at hsome
    cases hsome
  · split
    · rename_i i hflat
      rw [hflat]
      exact .inl ⟨rfl, rfl⟩
    · rename_i i issues hissues hflat
      rw [hflat]
      exact .inr ⟨rfl, fun _ _ _ => ⟨rfl, fun e => hissues e⟩⟩

private theorem outline_registerInterface (d : Declarations) (cyclic : List String) (h : Graph)
    (e : String × InterfaceDeclaration) : (registerInterface d cyclic h e).1.outline = h.outline := by
  rcases registerInterface_cases d cyclic h e with ⟨-, hadded⟩ | ⟨hsame, -⟩
  · rw [hadded]
    rfl
  · rw [hsame]

theorem clean_flatten_of_eq_nil {decl : InterfaceDeclaration} (hnone : (Interface.flatten d h decl).2 = []) :
    Clean (Interface.flatten d h decl).2 := by
  rw [hnone]
  exact fun i hi => absurd hi List.not_mem_nil

/-- An interface that is flattened without an issue takes the key of its entry. -/
theorem qualifiedName_flatten (hd : d.InterfacesByName) (he : e ∈ d.interfaces.entries)
    (hnone : (Interface.flatten d h e.2).2 = []) : (Interface.flatten d h e.2).1.qualifiedName = e.1 := by
  rw [hd e he]
  exact congrArg TypeName.qualified (Interface.demands_flatten (clean_flatten_of_eq_nil hnone)).1

private theorem registers_addInterface (hd : d.InterfacesByName) (he : e ∈ d.interfaces.entries)
    (eq : h.outline = k.outline)
    (hnone : (Interface.flatten d h e.2).2 = []) : Registers d k (h.addInterface (Interface.flatten d h e.2).1) e := by
  obtain ⟨-, hown, hall⟩ := Interface.demands_flatten (clean_flatten_of_eq_nil hnone)
  have hfind : (h.addInterface (Interface.flatten d h e.2).1).interfaces.find? e.1 =
      some (Interface.flatten d h e.2).1 := by
    rw [addInterface, NameMap.find?_insert, qualifiedName_flatten hd he hnone, if_pos rfl]
  refine ⟨_, hfind, fun r hr => (hown r hr).congr eq.symm, fun source hsource hsound => ?_⟩
  exact hall source hsource fun r hr => (hsound r hr).congr eq

/-- What is registered stays so when one more interface is. -/
theorem Registers.step (hregisters : Registers d k h e) (hd : d.InterfacesByName) (he : e ∈ d.interfaces.entries)
    {a : String × InterfaceDeclaration} (ha : a ∈ d.interfaces.entries) (eq : h.outline = k.outline)
    (cyclic : List String) : Registers d k (registerInterface d cyclic h a).1 e := by
  rcases registerInterface_cases d cyclic h a with ⟨hnone, hadded⟩ | ⟨hsame, -⟩
  · rw [hadded]
    by_cases hkey : e.1 = a.1
    · obtain rfl : e = a := by
        refine Prod.ext hkey ?_
        have hfind := d.interfaces.find?_eq_some_iff.2 he
        rw [hkey, d.interfaces.find?_eq_some_iff.2 ha] at hfind
        exact (Option.some.inj hfind).symm
      exact registers_addInterface hd he eq hnone
    · obtain ⟨i, hi, hsound, hdemands⟩ := hregisters
      refine ⟨i, ?_, hsound, hdemands⟩
      rw [addInterface, NameMap.find?_insert, qualifiedName_flatten hd ha hnone, if_neg hkey]
      exact hi
  · rw [hsame]
    exact hregisters

/-- Without an error an interface whose super interfaces are defined is added as it is flattened. -/
private theorem registerInterface_of_clean (he : e ∈ d.interfaces.entries) (hlinked : d.IsLinked e.1)
    (clean : Clean (registerInterface d [] h e).2) :
    (Interface.flatten d h e.2).2 = [] ∧
      (registerInterface d [] h e).1 = h.addInterface (Interface.flatten d h e.2).1 := by
  rcases registerInterface_cases d [] h e with hadded | ⟨-, hissues⟩
  · exact hadded
  · obtain ⟨hissues, hsome⟩ := hissues List.not_mem_nil hlinked he
    rw [hissues] at clean
    exact absurd (eq_nil_of_clean (fun x hx => (Interface.isFlaw_flatten x hx).1) clean) hsome

private theorem registers_of_clean (hd : d.InterfacesByName) (he : e ∈ d.interfaces.entries) (hlinked : d.IsLinked e.1)
    (eq : h.outline = k.outline) (clean : Clean (registerInterface d [] h e).2) :
    Registers d k (registerInterface d [] h e).1 e := by
  obtain ⟨hnone, hadded⟩ := registerInterface_of_clean he hlinked clean
  rw [hadded]
  exact registers_addInterface hd he eq hnone

/-- If all interfaces are registered without an error, each demands the members of every interface that it can reach. -/
theorem demands_of_clean (hd : d.InterfacesByName) (clean : Clean (k.registerInterfaces d).2)
    {i : InterfaceDeclaration} (hi : d.interfaces.find? i.qualifiedName = some i) :
    ∃ flat, (k.registerInterfaces d).1.interfaces.find? i.qualifiedName = some flat ∧
      ∀ j, Relation.ReflTransGen d.Extends i j → flat.Demands j := by
  obtain ⟨hsearch, hregister⟩ := clean_append.1 clean
  obtain ⟨hcyclic, hlinked⟩ := Declarations.linked_of_clean hsearch
  rw [hcyclic] at hregister
  have hall := forall_of_clean_gather (fun h => h.outline = k.outline)
    (fun e h => e ∈ d.interfaces.entries → Registers d k h e)
    (fun h a _ eq => (outline_registerInterface d [] h a).trans eq)
    (fun h a ha e eq hregisters he => (hregisters he).step hd he ha eq [])
    (fun h a ha eq hclean _ => registers_of_clean hd ha (hlinked a.1 (List.mem_map_of_mem ha)) eq hclean) rfl hregister
  have hregistered : ∀ j, d.interfaces.find? j.qualifiedName = some j →
      Registers d k (k.registerInterfaces d).1 (j.qualifiedName, j) := by
    intro j hj
    have he := d.interfaces.find?_eq_some_iff.1 hj
    have := hall _ he he
    rw [registerInterfaces, hcyclic]
    exact this
  obtain ⟨flat, hflat, -, hdemands⟩ := hregistered i hi
  refine ⟨flat, hflat, fun j hij => ?_⟩
  rcases Relation.reflTransGen_iff_eq_or_transGen.1 hij with rfl | hij
  · obtain ⟨-, -, hsound, -⟩ := hregistered _ hi
    exact hdemands _ List.mem_cons_self hsound
  · obtain ⟨_, -, s, -, hs⟩ := Relation.TransGen.tail'_iff.1 hij
    obtain ⟨-, -, hsound, -⟩ := hregistered j (hd.find?_qualifiedName hs)
    exact hdemands j (List.mem_cons_of_mem _ ((Declarations.mem_superInterfacesOf_iff hd).2 hij)) hsound

/-! ### One name -/

/-- The last of the interfaces of that name, in the order of keys. -/
def lastNamed? (name : String) (declared : List InterfaceDeclaration) : Option InterfaceDeclaration :=
  (declared.filter (·.qualifiedName == name)).getLast?

private theorem lastNamed?_cons (name : String) (i : InterfaceDeclaration) (declared : List InterfaceDeclaration) :
    lastNamed? name (i :: declared) =
      (lastNamed? name declared).or (if i.qualifiedName = name then some i else none) := by
  unfold lastNamed?
  by_cases hname : i.qualifiedName = name
  · rw [List.filter_cons_of_pos (by simpa using hname), List.getLast?_cons, if_pos hname]
    cases (declared.filter (·.qualifiedName == name)).getLast? <;> rfl
  · rw [List.filter_cons_of_neg (by simpa using hname), if_neg hname, Option.or_none]

theorem mem_of_lastNamed? {name : String} {i : InterfaceDeclaration} {declared : List InterfaceDeclaration}
    (h : lastNamed? name declared = some i) : i ∈ declared ∧ i.qualifiedName = name := by
  have hmem := List.mem_filter.1 (List.mem_of_getLast? h)
  exact ⟨hmem.1, by simpa using hmem.2⟩

/-- What stands under a name after interfaces are registered without an error: what represents the last interface of
that name, or what stood there before if there is none. -/
private theorem find?_gather_registerInterface (name : String) {l : List (String × InterfaceDeclaration)}
    (hl : ∀ e ∈ l, e ∈ d.interfaces.entries ∧ d.IsLinked e.1)
    (clean : Clean (gather (registerInterface d []) h l).2) :
    match lastNamed? name (l.map (·.2)) with
    | some decl => ∃ i : Interface, i.Represents d decl ∧
        (gather (registerInterface d []) h l).1.interfaces.find? name = some i
    | none => (gather (registerInterface d []) h l).1.interfaces.find? name = h.interfaces.find? name := by
  induction l generalizing h with
  | nil => rfl
  | cons e l ih =>
    rw [gather_cons] at clean ⊢
    obtain ⟨hhead, htail⟩ := clean_append.1 clean
    obtain ⟨he, hlinked⟩ := hl e List.mem_cons_self
    obtain ⟨hnone, hadded⟩ := registerInterface_of_clean he hlinked hhead
    have hi := Interface.represents_flatten (clean_flatten_of_eq_nil hnone)
    have hrest := ih (fun e he => hl e (List.mem_cons_of_mem _ he)) htail
    rw [List.map_cons, lastNamed?_cons]
    cases hlast : lastNamed? name (l.map (·.2)) with
    | some decl =>
      rw [hlast] at hrest
      exact hrest
    | none =>
      rw [hlast] at hrest
      have hname : (Interface.flatten d h e.2).1.qualifiedName = e.2.qualifiedName :=
        congrArg TypeName.qualified hi.name
      rw [Option.none_or, hrest, hadded, addInterface, NameMap.find?_insert, hname]
      by_cases hsame : e.2.qualifiedName = name
      · rw [if_pos hsame, if_pos hsame.symm]
        exact ⟨_, hi, rfl⟩
      · rw [if_neg hsame, if_neg (Ne.symm hsame)]

theorem find?_registerInterfaces (clean : Clean (k.registerInterfaces d).2) (name : String) :
    match lastNamed? name d.interfaces.values with
    | some decl => ∃ i : Interface, i.Represents d decl ∧ (k.registerInterfaces d).1.interfaces.find? name = some i
    | none => (k.registerInterfaces d).1.interfaces.find? name = k.interfaces.find? name := by
  obtain ⟨hsearch, hregister⟩ := clean_append.1 clean
  obtain ⟨hcyclic, hlinked⟩ := Declarations.linked_of_clean hsearch
  rw [hcyclic] at hregister
  rw [registerInterfaces, hcyclic]
  exact find?_gather_registerInterface name (fun e he => ⟨he, hlinked e.1 (List.mem_map_of_mem he)⟩) hregister

end Graph

end Metamodel
