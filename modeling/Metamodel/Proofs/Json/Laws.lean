import Metamodel.Json.Library

/-!
# Lawful libraries

What reading back relies on in a library (`LawfulLibrary`): its parser undoes its printer, and each decoder reads what
is written for its type, scalars and containers alike.  `ReadsBack decoder j a` says that a decoder reads the value `a`
from `j`, and `Fields.ReadsBack fields written rest a` that some fields of a record are read from what is written for
them before `rest`; a record is read back if its fields are.
-/

namespace Metamodel.Json

/-! ### Nesting -/

mutual

/-- How many containers the value has within each other. -/
def nesting : Json → Nat
  | .array items => itemsNesting items + 1
  | .object members => membersNesting members + 1
  | .null | .bool _ | .number _ | .string _ => 0

def itemsNesting : List Json → Nat
  | [] => 0
  | x :: xs => max (nesting x) (itemsNesting xs)

def membersNesting : List (Option String × Json) → Nat
  | [] => 0
  | (_, x) :: ms => max (nesting x) (membersNesting ms)

end

private theorem itemsNesting_le_iff {items : List Json} {depth : Nat} :
    itemsNesting items ≤ depth ↔ ∀ x ∈ items, x.nesting ≤ depth := by
  induction items with
  | nil => simp [itemsNesting]
  | cons x xs ih => rw [itemsNesting, Nat.max_le, ih, List.forall_mem_cons]

private theorem membersNesting_le_iff {members : List (Option String × Json)} {depth : Nat} :
    membersNesting members ≤ depth ↔ ∀ m ∈ members, m.2.nesting ≤ depth := by
  induction members with
  | nil => simp [membersNesting]
  | cons m ms ih => rw [membersNesting, Nat.max_le, ih, List.forall_mem_cons]

/-- A container may be opened if one more is allowed than within each of its items. -/
theorem exists_nesting_list_le {α : Type} {encode : α → Json} {as : List α} {depth : Nat}
    (h : (list encode as).nesting ≤ depth) :
    ∃ inner, depth = inner + 1 ∧ ∀ a ∈ as, (encode a).nesting ≤ inner := by
  obtain ⟨inner, rfl⟩ : ∃ inner, depth = inner + 1 := Nat.exists_eq_add_one.2 (Nat.zero_lt_of_lt h)
  exact ⟨inner, rfl, fun a ha => itemsNesting_le_iff.1 (Nat.le_of_succ_le_succ h) _ (List.mem_map_of_mem ha)⟩

theorem exists_nesting_record_le {written : List (String × Json)} {depth : Nat}
    (h : (record written).nesting ≤ depth) : ∃ inner, depth = inner + 1 ∧ ∀ m ∈ written, m.2.nesting ≤ inner := by
  obtain ⟨inner, rfl⟩ : ∃ inner, depth = inner + 1 := Nat.exists_eq_add_one.2 (Nat.zero_lt_of_lt h)
  exact ⟨inner, rfl, fun m hm => membersNesting_le_iff.1 (Nat.le_of_succ_le_succ h) _ (List.mem_map_of_mem hm)⟩

/-! ### Laws -/

/-- The values that typed data is written as: its numbers are integers of at most 64 bits. -/
inductive Plain : Json → Prop where
  | null : Plain .null
  | bool (b : Bool) : Plain (.bool b)
  | int {i : Int} (hfirst : Int64.minValue.toInt ≤ i) (hlast : i < UInt64.size) : Plain (int i)
  | text (s : String) : Plain (text s)
  | array {items : List Json} (h : ∀ x ∈ items, Plain x) : Plain (.array items)
  | record {written : List (String × Json)} (h : ∀ m ∈ written, Plain m.2) : Plain (record written)

section

variable {D : Type → Type} [Library D]

/-- The decoder reads `a` from `j` wherever the containers of `j` may be opened. -/
def Reads {α : Type} (decoder : D α) (j : Json) (a : α) : Prop :=
  ∀ depth, j.nesting ≤ depth → Library.decode decoder depth j = .ok a

/-- `a` is made of what the fields read, each from the value that is written under its name, in their order. -/
inductive Fields.Reads : {α : Type} → Fields D α → List (String × Json) → α → Prop where
  | const {α : Type} (a : α) : Fields.Reads (.const a) [] a
  | next {α β : Type} {before : Fields D (α → β)} {written : List (String × Json)} {g : α → β} {decoder : D α}
      {j : Json} {a : α} (hbefore : before.Reads written g) (name : String) (h : Json.Reads decoder j a)
      (absent : Option α) : Fields.Reads (.next before name decoder absent) (written ++ [(name, j)]) (g a)

end

/-- What reading back relies on. -/
class LawfulLibrary (D : Type → Type) [Library D] : Prop where
  /-- The text of a plain value denotes that value, unless it is nested too deep to be read. -/
  parse_print {j : Json} (plain : j.Plain) (h : j.nesting ≤ maxDepth) : Library.parse D (Library.print D j) = some j
  reads_text (s : String) : Reads (Library.text : D String) (text s) s
  reads_bool (b : Bool) : Reads (Library.bool : D Bool) (.bool b) b
  reads_uint32 (n : UInt32) : Reads (Library.uint32 : D UInt32) (nat n.toNat) n
  reads_int32 (i : Int32) : Reads (Library.int32 : D Int32) (int i.toInt) i
  reads_int64 (i : Int64) : Reads (Library.int64 : D Int64) (int i.toInt) i
  reads_option_none {α : Type} (decoder : D α) : Reads (Library.option decoder) .null none
  reads_option_some {α : Type} {decoder : D α} {j : Json} {a : α} (hj : j ≠ .null) (h : Reads decoder j a) :
    Reads (Library.option decoder) j (some a)
  /-- A name of the table stands for what the table has under it. -/
  reads_variant {α : Type} {table : List (String × α)} {name : String} {a : α} (h : table.lookup name = some a) :
    Reads (Library.variant table : D α) (text name) a
  reads_list {α : Type} {decoder : D α} {encode : α → Json} {as : List α} (h : ∀ a ∈ as, Reads decoder (encode a) a) :
    Reads (Library.list decoder) (list encode as) as
  reads_nameMap {α : Type} {decoder : D α} {encode : α → Json} {m : NameMap α}
    (h : ∀ e ∈ m.entries, Reads decoder (encode e.2) e.2) :
    Reads (Library.nameMap decoder) (record (m.entries.map fun e => (e.1, encode e.2))) m
  /-- A record with fields of different names is read from its fields, all of them written in their order. -/
  reads_record {α : Type} (name : String) {fields : Fields D α} {written : List (String × Json)} {a : α}
    (hnames : fields.names.Nodup) (h : fields.Reads written a) :
    Reads (Library.record name fields) (record written) a
  /-- A decoder that stands for itself inside reads a value if its level does so whenever what stands inside reads the
  values that open fewer containers. -/
  reads_recursive {α : Type} {level : D α → D α} {encode : α → Json}
    (h : ∀ inner a, (∀ b, (encode b).nesting < (encode a).nesting → Reads inner (encode b) b) →
      Reads (level inner) (encode a) a) (a : α) : Reads (Library.recursive level) (encode a) a

/-! ### Reading back -/

namespace Fields.Reads

variable {D : Type → Type} [Library D] {α β : Type} {written : List (String × Json)}

theorem names {x : Fields D α} {a : α} (h : x.Reads written a) : x.names = written.map (·.1) := by
  induction h with
  | const a => rfl
  | next hbefore name h absent ih => rw [Fields.names, ih, List.map_append, List.map_singleton]

theorem map {x : Fields D α} {a : α} (h : x.Reads written a) (f : α → β) : (x.map f).Reads written (f a) := by
  induction h generalizing β with
  | const a => exact .const (f a)
  | next hbefore name h absent ih => exact .next (ih fun g a => f (g a)) name h absent

theorem ap {f : Fields D (α → β)} {g : α → β} {more : List (String × Json)} {x : Fields D α} {a : α}
    (hf : f.Reads written g) (hx : x.Reads more a) : (f.ap x).Reads (written ++ more) (g a) := by
  induction hx generalizing β with
  | const a =>
    rw [List.append_nil]
    exact hf.map fun g => g a
  | next hbefore name h absent ih =>
    rw [← List.append_assoc]
    exact .next (ih (hf.map fun g h a => g (h a))) name h absent

end Fields.Reads

section

variable {D : Type → Type} [Library D]

/-- The decoder reads `a` from what is written for it; `null` is kept for what is left out. -/
structure ReadsBack {α : Type} (decoder : D α) (j : Json) (a : α) : Prop where
  plain : j.Plain
  ne_null : j ≠ .null
  reads : Reads decoder j a

/-- The fields are read from what is written for them before `rest`. -/
def Fields.ReadsBack {α : Type} (fields : Fields D α) (written rest : List (String × Json)) (a : α) : Prop :=
  ∃ own, written = own ++ rest ∧ (∀ m ∈ own, m.2.Plain) ∧ fields.Reads own a

end

namespace Fields.ReadsBack

variable {D : Type → Type} [Library D] {α β : Type} {written middle rest : List (String × Json)}

theorem single {decoder : D α} {j : Json} {a : α} (name : String) (absent : Option α) (hplain : j.Plain)
    (h : Json.Reads decoder j a) : (next (.const id) name decoder absent).ReadsBack ((name, j) :: rest) rest a :=
  ⟨[(name, j)], rfl, List.forall_mem_singleton.2 hplain, .next (.const id) name h absent⟩

theorem field {decoder : D α} {j : Json} {a : α} (name : String) (h : Json.ReadsBack decoder j a) :
    (field name decoder).ReadsBack ((name, j) :: rest) rest a :=
  single name none h.plain h.reads

theorem fieldD {decoder : D α} {default : α} {j : Json} {a : α} (name : String) (h : Json.ReadsBack decoder j a) :
    (fieldD name decoder default).ReadsBack ((name, j) :: rest) rest a :=
  single name (some default) h.plain h.reads

theorem map {x : Fields D α} {a : α} (f : α → β) (h : x.ReadsBack written rest a) :
    (f <$> x).ReadsBack written rest (f a) := by
  obtain ⟨own, rfl, hplain, hreads⟩ := h
  exact ⟨own, rfl, hplain, hreads.map f⟩

/-- Fields after each other are read from what is written after each other. -/
theorem seq {f : Fields D (α → β)} {g : α → β} {x : Fields D α} {a : α} (hf : f.ReadsBack written middle g)
    (hx : x.ReadsBack middle rest a) : (f <*> x).ReadsBack written rest (g a) := by
  obtain ⟨front, rfl, hfront, hg⟩ := hf
  obtain ⟨back, rfl, hback, ha⟩ := hx
  exact ⟨front ++ back, (List.append_assoc ..).symm, List.forall_mem_append.2 ⟨hfront, hback⟩, hg.ap ha⟩

end Fields.ReadsBack

section

variable {D : Type → Type} [Library D] [LawfulLibrary D] {α : Type}

theorem readsBack_text (s : String) : ReadsBack (Library.text : D String) (text s) s :=
  ⟨.text s, nofun, LawfulLibrary.reads_text s⟩

theorem readsBack_bool (b : Bool) : ReadsBack (Library.bool : D Bool) (.bool b) b :=
  ⟨.bool b, nofun, LawfulLibrary.reads_bool b⟩

theorem readsBack_uint32 (n : UInt32) : ReadsBack (Library.uint32 : D UInt32) (nat n.toNat) n := by
  have hlast : n.toNat < UInt32.size := n.toNat_lt_size
  have hsize : UInt32.size ≤ UInt64.size := by decide
  have hfirst : Int64.minValue.toInt ≤ 0 := by decide
  exact ⟨.int (by omega) (by omega), nofun, LawfulLibrary.reads_uint32 n⟩

theorem readsBack_int32 (i : Int32) : ReadsBack (Library.int32 : D Int32) (int i.toInt) i := by
  have hfirst : Int64.minValue.toInt ≤ Int32.minValue.toInt := by decide
  have hlast : Int32.maxValue.toInt < UInt64.size := by decide
  exact ⟨.int (Int.le_trans hfirst i.minValue_le_toInt) (Int.lt_of_le_of_lt i.toInt_le hlast), nofun,
    LawfulLibrary.reads_int32 i⟩

theorem readsBack_int64 (i : Int64) : ReadsBack (Library.int64 : D Int64) (int i.toInt) i := by
  have hlast : Int64.maxValue.toInt < UInt64.size := by decide
  exact ⟨.int i.minValue_le_toInt (Int.lt_of_le_of_lt i.toInt_le hlast), nofun, LawfulLibrary.reads_int64 i⟩

theorem readsBack_variant {table : List (String × α)} {name : String} {a : α} (h : table.lookup name = some a) :
    ReadsBack (Library.variant table : D α) (text name) a :=
  ⟨.text name, nofun, LawfulLibrary.reads_variant h⟩

theorem readsBack_list {decoder : D α} {encode : α → Json} {as : List α}
    (h : ∀ a ∈ as, ReadsBack decoder (encode a) a) : ReadsBack (Library.list decoder) (list encode as) as := by
  refine ⟨.array fun x hx => ?_, nofun, LawfulLibrary.reads_list fun a ha => (h a ha).reads⟩
  obtain ⟨a, ha, rfl⟩ := List.mem_map.1 hx
  exact (h a ha).plain

theorem readsBack_nameMap {decoder : D α} {encode : α → Json} (h : ∀ a, ReadsBack decoder (encode a) a)
    (m : NameMap α) :
    ReadsBack (Library.nameMap decoder) (record (m.entries.map fun e => (e.1, encode e.2))) m := by
  refine ⟨.record fun e he => ?_, nofun, LawfulLibrary.reads_nameMap fun e _ => (h e.2).reads⟩
  obtain ⟨e, -, rfl⟩ := List.mem_map.1 he
  exact (h e.2).plain

/-- A record of fields with different names, written in their order. -/
theorem Fields.ReadsBack.record {fields : Fields D α} {written : List (String × Json)} {a : α}
    (h : fields.ReadsBack written [] a) (name : String) (hnames : (written.map (·.1)).Nodup) :
    Json.ReadsBack (Library.record name fields) (Json.record written) a := by
  obtain ⟨own, rfl, hplain, hreads⟩ := h
  rw [List.append_nil] at hnames ⊢
  exact ⟨.record hplain, nofun, LawfulLibrary.reads_record name (hreads.names ▸ hnames) hreads⟩

end

end Metamodel.Json
