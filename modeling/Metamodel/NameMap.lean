/-!
# Maps keyed by name

A finite map from names to values, kept as the list of its entries in strictly increasing order of the names (by code
points, which is also the order of their UTF-8 bytes).  The order is part of the type, so two maps are equal when their
entries are; `find?_insert` says what an insertion does to a look-up.
-/

namespace Metamodel

structure NameMap (α : Type) where
  entries : List (String × α)
  increasing : entries.Pairwise (·.1 < ·.1)

namespace NameMap

variable {α : Type}

def empty : NameMap α := ⟨[], .nil⟩

instance : Inhabited (NameMap α) := ⟨empty⟩

@[ext] theorem ext {m n : NameMap α} (h : m.entries = n.entries) : m = n := by
  cases m; cases n; simp_all

/-- The entries with `name` bound to `a`, an earlier binding of it replaced. -/
def insertEntry (name : String) (a : α) : List (String × α) → List (String × α)
  | [] => [(name, a)]
  | e :: rest =>
    if name < e.1 then (name, a) :: e :: rest
    else if name = e.1 then (name, a) :: rest
    else e :: insertEntry name a rest

theorem mem_insertEntry {name : String} {a : α} {e : String × α} {l : List (String × α)}
    (h : e ∈ insertEntry name a l) : e = (name, a) ∨ e ∈ l := by
  induction l with
  | nil => simpa [insertEntry] using h
  | cons d rest ih =>
    rw [insertEntry] at h
    split at h
    · simpa using h
    · split at h
      · rcases List.mem_cons.1 h with h | h
        · exact .inl h
        · exact .inr (List.mem_cons_of_mem _ h)
      · rcases List.mem_cons.1 h with rfl | h
        · exact .inr List.mem_cons_self
        · exact (ih h).imp_right (List.mem_cons_of_mem _)

private theorem lt_of_not {a b : String} (h₁ : ¬ a < b) (h₂ : a ≠ b) : b < a := by
  rcases String.le_total a b with h | h
  · exact absurd (String.le_antisymm h (String.not_lt.1 h₁)) h₂
  · exact String.not_le.1 fun h' => h₂ (String.le_antisymm h' h)

theorem increasing_insertEntry (name : String) (a : α) {l : List (String × α)} (h : l.Pairwise (·.1 < ·.1)) :
    (insertEntry name a l).Pairwise (·.1 < ·.1) := by
  induction l with
  | nil => simp [insertEntry]
  | cons d rest ih =>
    obtain ⟨hd, hr⟩ := List.pairwise_cons.1 h
    rw [insertEntry]
    split
    · rename_i hlt
      refine List.pairwise_cons.2 ⟨fun e he => ?_, h⟩
      rcases List.mem_cons.1 he with rfl | he
      · exact hlt
      · exact String.lt_trans hlt (hd e he)
    · split
      · rename_i heq
        exact List.pairwise_cons.2 ⟨fun e he => by simpa [heq] using hd e he, hr⟩
      · rename_i hlt heq
        refine List.pairwise_cons.2 ⟨fun e he => ?_, ih hr⟩
        rcases mem_insertEntry he with rfl | he
        · exact lt_of_not hlt heq
        · exact hd e he

/-- The map with `name` bound to `a`. -/
def insert (m : NameMap α) (name : String) (a : α) : NameMap α :=
  ⟨insertEntry name a m.entries, increasing_insertEntry name a m.increasing⟩

/-- The map of a list of bindings, in which a later one replaces an earlier one of the same name. -/
def ofList (bindings : List (String × α)) : NameMap α :=
  bindings.foldl (fun m (name, a) => m.insert name a) empty

/-- The value bound to the name. -/
def find? (m : NameMap α) (name : String) : Option α :=
  m.entries.lookup name

def keys (m : NameMap α) : List String :=
  m.entries.map (·.1)

def values (m : NameMap α) : List α :=
  m.entries.map (·.2)

def size (m : NameMap α) : Nat :=
  m.entries.length

/-- A name after all others is inserted at the end. -/
theorem insertEntry_eq_append {name : String} (a : α) {l : List (String × α)} (h : ∀ e ∈ l, e.1 < name) :
    insertEntry name a l = l ++ [(name, a)] := by
  induction l with
  | nil => rfl
  | cons d rest ih =>
    have hd := h d List.mem_cons_self
    have hne : name ≠ d.1 := fun heq => String.lt_irrefl name (by rw [← heq] at hd; exact hd)
    rw [insertEntry, if_neg (String.lt_asymm hd), if_neg hne, ih fun e he => h e (List.mem_cons_of_mem _ he)]
    rfl

/-- A map is the map of its entries. -/
theorem ofList_entries (m : NameMap α) : ofList m.entries = m := by
  -- What is inserted so far stays in front of what is still to come.
  suffices h : ∀ (l : List (String × α)) (front : NameMap α), (front.entries ++ l).Pairwise (·.1 < ·.1) →
      (l.foldl (fun m (name, a) => m.insert name a) front).entries = front.entries ++ l by
    exact ext (h m.entries empty m.increasing)
  intro l
  induction l with
  | nil => simp
  | cons e rest ih =>
    intro front hincreasing
    have hfront : ∀ d ∈ front.entries, d.1 < e.1 := fun d hd =>
      (List.pairwise_append.1 hincreasing).2.2 d hd e List.mem_cons_self
    have hinsert : (front.insert e.1 e.2).entries = front.entries ++ [e] := insertEntry_eq_append e.2 hfront
    rw [List.foldl_cons, ih, hinsert, List.append_assoc, List.singleton_append]
    rwa [hinsert, List.append_assoc, List.singleton_append]

theorem find?_insert (m : NameMap α) (name other : String) (a : α) :
    (m.insert name a).find? other = if other = name then some a else m.find? other := by
  obtain ⟨l, hl⟩ := m
  show (insertEntry name a l).lookup other = if other = name then some a else l.lookup other
  clear hl
  induction l with
  | nil =>
    by_cases h : other = name
    · simp [insertEntry, h]
    · simp [insertEntry, h, List.lookup_cons, beq_eq_false_iff_ne.2 h]
  | cons d rest ih =>
    obtain ⟨key, b⟩ := d
    rw [insertEntry]
    by_cases h₁ : name < key
    · rw [if_pos h₁, List.lookup_cons]
      by_cases h : other = name
      · simp [h]
      · simp [h, beq_eq_false_iff_ne.2 h]
    · rw [if_neg h₁]
      by_cases h₂ : name = key
      · rw [if_pos h₂, List.lookup_cons, List.lookup_cons]
        by_cases h : other = name
        · simp [h]
        · simp [h, beq_eq_false_iff_ne.2 h, ← h₂]
      · rw [if_neg h₂, List.lookup_cons, List.lookup_cons, ih]
        by_cases h : other = key
        · simp [h, Ne.symm h₂]
        · simp [beq_eq_false_iff_ne.2 h]

/-- A name that is bound to nothing adds an entry. -/
theorem size_insert (m : NameMap α) {name : String} (a : α) (h : m.find? name = none) :
    (m.insert name a).size = m.size + 1 := by
  obtain ⟨l, hl⟩ := m
  replace h : l.lookup name = none := h
  show (insertEntry name a l).length = l.length + 1
  clear hl
  induction l with
  | nil => rfl
  | cons d rest ih =>
    obtain ⟨key, b⟩ := d
    have hne : name ≠ key := fun heq => by simp [heq] at h
    rw [List.lookup_cons, beq_eq_false_iff_ne.2 hne] at h
    rw [insertEntry]
    by_cases hlt : name < key
    · rw [if_pos hlt, List.length_cons]
    · rw [if_neg hlt, if_neg hne, List.length_cons, ih h, List.length_cons]

theorem find?_eq_some_iff (m : NameMap α) {name : String} {a : α} :
    m.find? name = some a ↔ (name, a) ∈ m.entries := by
  obtain ⟨l, hl⟩ := m
  show l.lookup name = some a ↔ (name, a) ∈ l
  induction l with
  | nil => simp
  | cons e rest ih =>
    obtain ⟨key, b⟩ := e
    obtain ⟨hfirst, hrest⟩ := List.pairwise_cons.1 hl
    rw [List.lookup_cons]
    by_cases h : name = key
    · subst h
      have hnot : (name, a) ∉ rest := fun hmem => String.lt_irrefl name (hfirst _ hmem)
      simp [hnot, eq_comm]
    · simp [beq_eq_false_iff_ne.2 h, ih hrest, h]

end NameMap

end Metamodel
