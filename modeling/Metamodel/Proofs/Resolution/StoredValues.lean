import Mathlib.Data.List.Nodup
import Metamodel.Proofs.Resolution.Enumerations
import Metamodel.Proofs.Text.Integer

/-!
# What is stored for the members of an enumeration

A member is stored as the integer or as the text that its literal denotes, and what is stored is read back as the first
member that is stored so.  The literals of an enumeration without a problem are distinct texts.  As texts they are also
what is stored, so no two members are stored alike and every member is read back.  Integers are compared by their
spelling all the same, so this holds of them only as far as they are written plain (`storesApart_of_resolve`): members
`1` and `01` are accepted side by side, and the second is read back as the first (`storesApart_fails_of_levels`).
-/

namespace Metamodel

inductive StoredValue where
  | integer (i : Int)
  | text (s : String)
deriving DecidableEq

/-! ### Members -/

namespace EnumerationMember

/-- What is stored for the member in an enumeration of type `t`. -/
def storedAs? (t : DataType) (m : EnumerationMember) : Option StoredValue :=
  match t with
  | .int => (Text.word? 32 (Text.trim m.persistedValue.toList)).map .integer
  | .string => some (.text (Text.trimmed m.persistedValue))
  | _ => none

/-- An integer is written without a plus sign and without zeros in front. -/
def IsPlain (t : DataType) (m : EnumerationMember) : Prop :=
  t = .int → Text.isPlainInteger (Text.trim m.persistedValue.toList)

/-- The member that a stored value is read back as. -/
def ofStored? (t : DataType) (ms : List EnumerationMember) (v : StoredValue) : Option EnumerationMember :=
  ms.find? (·.storedAs? t == some v)

variable {t : DataType} {m n : EnumerationMember} {v : StoredValue}

private theorem isSome_storedAs? (ht : t = .int ∨ t = .string) (hm : t.accepts m.persistedValue) :
    (m.storedAs? t).isSome := by
  rcases ht with rfl | rfl
  · rw [storedAs?, Option.isSome_map]
    exact hm
  · rfl

/-- Plain literals of one value are one text. -/
private theorem trimmed_eq_of_storedAs? (hm : m.storedAs? t = some v) (hn : n.storedAs? t = some v)
    (hplain : m.IsPlain t) (hplain' : n.IsPlain t) : Text.trimmed m.persistedValue = Text.trimmed n.persistedValue := by
  unfold storedAs? at hm hn
  split at hm
  · obtain ⟨i, hi, rfl⟩ := Option.map_eq_some_iff.1 hm
    obtain ⟨j, hj, hij⟩ := Option.map_eq_some_iff.1 hn
    obtain rfl := StoredValue.integer.inj hij
    have hsame := Text.eq_of_integer? (Option.eq_some_of_filter_eq_some hi) (Option.eq_some_of_filter_eq_some hj)
      (hplain rfl) (hplain' rfl)
    rw [Text.trimmed, hsame, Text.trimmed]
  · exact StoredValue.text.inj (Option.some.inj (hm.trans hn.symm))
  · cases hm

/-- A value that is stored for one member only is read back as that member. -/
private theorem ofStored?_eq_some {ms : List EnumerationMember} (hm : m ∈ ms) (hv : m.storedAs? t = some v)
    (honly : ∀ n ∈ ms, n.storedAs? t = some v → n = m) : ofStored? t ms v = some m := by
  cases hread : ofStored? t ms v with
  | none => exact absurd hv (by simpa using List.find?_eq_none.1 hread m hm)
  | some n => rw [honly n (List.mem_of_find?_eq_some hread) (by simpa using List.find?_some hread)]

end EnumerationMember

open EnumerationMember

/-- Every member of an enumeration of type `t` is stored, and those that are written plain are stored apart.  A member
is read back if it and all that are stored like it are written plain. -/
structure StoresApart (t : DataType) (ms : List EnumerationMember) : Prop where
  type : t = .int ∨ t = .string
  names : (ms.map (·.name)).Nodup
  stored : ∀ m ∈ ms, (m.storedAs? t).isSome
  apart : ∀ m ∈ ms, ∀ n ∈ ms, m.IsPlain t → n.IsPlain t → m.storedAs? t = n.storedAs? t → m = n
  readBack : ∀ m ∈ ms, (∀ n ∈ ms, n.storedAs? t = m.storedAs? t → n.IsPlain t) →
    (m.storedAs? t).bind (ofStored? t ms) = some m

namespace EnumerationDeclaration

/-- Members without a problem have names and literals that are distinct, also from those before them. -/
private theorem nodup_of_memberProblems {t : DataType} {names values : List String} {ms : List EnumerationMember}
    (h : memberProblems t names values ms = []) (hnames : names.Nodup) (hvalues : values.Nodup) :
    (names ++ ms.map (·.name)).Nodup ∧ (values ++ ms.map (Text.trimmed ·.persistedValue)).Nodup ∧
      ∀ m ∈ ms, t.accepts m.persistedValue := by
  induction ms generalizing names values with
  | nil => simpa using ⟨hnames, hvalues⟩
  | cons m ms ih =>
    simp only [memberProblems, List.append_eq_nil_iff, ite_eq_right_iff, ite_eq_left_iff, List.cons_ne_nil, imp_false,
      List.contains_iff_mem, not_not] at h
    obtain ⟨⟨⟨hname, hvalue⟩, haccepts⟩, hrest⟩ := h
    obtain ⟨hnames', hvalues', hall⟩ := ih hrest (hnames.cons hname) (hvalues.cons hvalue)
    exact ⟨List.perm_middle.nodup_iff.2 hnames', List.perm_middle.nodup_iff.2 hvalues',
      List.forall_mem_cons.2 ⟨haccepts, hall⟩⟩

private theorem storesApart_of_problems {e : EnumerationDeclaration} (h : e.problems = []) :
    StoresApart e.persistedType e.members := by
  have htype := persistedType_of_problems h
  obtain ⟨-, hmembers⟩ := List.append_eq_nil_iff.1 h
  obtain ⟨hnames, hvalues, haccepts⟩ := nodup_of_memberProblems hmembers .nil .nil
  have hstored : ∀ m ∈ e.members, (m.storedAs? e.persistedType).isSome := fun m hm =>
    isSome_storedAs? htype (haccepts m hm)
  have hapart : ∀ m ∈ e.members, ∀ n ∈ e.members, m.IsPlain e.persistedType → n.IsPlain e.persistedType →
      m.storedAs? e.persistedType = n.storedAs? e.persistedType → m = n := by
    intro m hm n hn hplain hplain' heq
    obtain ⟨v, hv⟩ := Option.isSome_iff_exists.1 (hstored n hn)
    exact List.inj_on_of_nodup_map hvalues hm hn (trimmed_eq_of_storedAs? (heq.trans hv) hv hplain hplain')
  refine ⟨htype, hnames, hstored, hapart, fun m hm hplain => ?_⟩
  obtain ⟨v, hv⟩ := Option.isSome_iff_exists.1 (hstored m hm)
  rw [hv, Option.bind_some]
  refine ofStored?_eq_some hm hv fun n hn hvalue => ?_
  have heq := hvalue.trans hv.symm
  exact hapart n hn m hm (hplain n hn heq) (hplain m hm rfl) heq

end EnumerationDeclaration

/-! ### Resolution -/

namespace Graph

variable {d : Declarations} {config : Config} {g : Graph}

/-- The members of the enumerations of a resolved graph, as declared and in the graph, are stored apart as far as they
are written plain. -/
theorem storesApart_of_resolve (hresolve : (d.resolve config).1 = .ok g) :
    (∀ entry ∈ d.enumerations.entries, StoresApart entry.2.persistedType entry.2.members) ∧
      ∀ e ∈ g.idsOfKind .enumeration,
        ∃ t, (g.entity e).persistedType = some t ∧ StoresApart t (g.entity e).members := by
  obtain ⟨-, hclean, -⟩ := clean_of_resolve hresolve
  have hdeclared : ∀ entry ∈ d.enumerations.entries, StoresApart entry.2.persistedType entry.2.members :=
    fun entry hentry => EnumerationDeclaration.storesApart_of_problems (problems_of_clean hclean entry hentry)
  refine ⟨hdeclared, fun e he => ?_⟩
  obtain ⟨g₀, c, hdeclares⟩ := exists_traced_of_resolve hresolve
  rw [c.idsOfKind_eq] at he
  obtain ⟨entry, hentry, hbefore⟩ := hdeclares.declared e he
  have hreflects := reflects_of_outline_eq c.outline_eq hbefore
  exact ⟨_, hreflects.persistedType, hreflects.members ▸ hdeclared entry hentry⟩

/-- The ranks of the sample are stored as one and two. -/
theorem storesApart_of_staff : (staff.resolve .default).1 = .ok staffGraph ∧
    (∀ entry ∈ staff.enumerations.entries, (∀ m ∈ entry.2.members, m.IsPlain entry.2.persistedType) ∧
      entry.2.members.map (·.storedAs? entry.2.persistedType) = [some (.integer 1), some (.integer 2)]) ∧
    (∀ entry ∈ staff.enumerations.entries, StoresApart entry.2.persistedType entry.2.members) ∧
      ∀ e ∈ staffGraph.idsOfKind .enumeration,
        ∃ t, (staffGraph.entity e).persistedType = some t ∧ StoresApart t (staffGraph.entity e).members := by
  refine ⟨resolve_staff, ?_, storesApart_of_resolve resolve_staff⟩
  unfold IsPlain
  decide +kernel

/-- Two levels stored as one integer, in different spellings. -/
def levels : Declarations where
  enumerations := ⟨[("com.acme.Level",
    { name := ⟨"com.acme", "Level"⟩, persistedType := .int, members := [⟨"LOW", "1"⟩, ⟨"HIGH", "01"⟩] })], by decide⟩

/-- The graph that the levels resolve to. -/
def levelsGraph : Graph :=
  (levels.resolve .default).1.toOption.getD empty

/-- The levels resolve without an issue, and both are stored as one; what is stored for the second is read back as the
first. -/
theorem storesApart_fails_of_levels : (levels.resolve .default).1 = .ok levelsGraph ∧
    (levels.resolve .default).2.report.issues = [] ∧
    ∃ e ∈ levelsGraph.idsOfKind .enumeration, (levelsGraph.entity e).persistedType = some .int ∧
      ∃ low high, (levelsGraph.entity e).members = [low, high] ∧ low ≠ high ∧
        low.storedAs? .int = some (.integer 1) ∧ high.storedAs? .int = some (.integer 1) ∧
        (high.storedAs? .int).bind (ofStored? .int (levelsGraph.entity e).members) = some low := by
  refine ⟨eq_ok_of_isOk (by decide +kernel) empty, by decide +kernel, 0, by decide +kernel, by decide +kernel,
    ⟨"LOW", "1"⟩, ⟨"HIGH", "01"⟩, ?_⟩
  decide +kernel

end Graph

end Metamodel
