import Mathlib.Data.List.Forall2
import Mathlib.Data.List.Nodup
import Metamodel.Hierarchy.Inheritance

/-!
# Members that are handed down

Attributes and relationships go from a superclass to an heir by the same rules, told apart by a `Bequest`: which
members stay above, how a member is copied, and how a member of the heir is merged with the one it redeclares.
`handAll` applies the rules to lists of members, with no graph around them.  Main statements: the heir keeps its
members in their order and gets copies of those `picked`, in the order of the superclass (`handAll_shape`), and
without conflicts it agrees with the superclass on every member handed down (`exists_agreeing_of_handAll`).  Where
names are distinct as well, each such member is a copy, or one that is declared again and merged once
(`eq_copy_or_merge`).
-/

namespace Metamodel

open Metamodel.Graph (MemberConflict)

/-- What becomes of a member of the superclass. -/
inductive Passage where
  /-- It stays with the superclass. -/
  | stays
  /-- The heir gets a copy. -/
  | copied
  /-- It meets the heir's member of its name, or the heir gets a copy if there is none. -/
  | meets
deriving DecidableEq

/-- How members of one sort are handed down to an heir. -/
structure Bequest (α : Type) where
  name : α → String
  passage : α → Passage
  copy : α → α
  merge : α → α → α × List String
  name_copy : ∀ a, name (copy a) = name a
  name_merge : ∀ a t, name (merge a t).1 = name a

/-- The list with its first element of a kind changed. -/
def updateFirst {α : Type} (p : α → Bool) (f : α → α) : List α → List α
  | [] => []
  | a :: as => if p a then f a :: as else a :: updateFirst p f as

private theorem map_updateFirst {α β : Type} (p : α → Bool) {f : α → α} {read : α → β} (h : ∀ a, read (f a) = read a)
    (l : List α) : (updateFirst p f l).map read = l.map read := by
  induction l with
  | nil => rfl
  | cons a l ih =>
    rw [updateFirst]
    split <;> simp [h, ih]

/-- Reading a changed element by its place in a list without repetitions changes the first element found there. -/
theorem map_ite_eq_updateFirst {α : Type} {ids : List Nat} (hids : ids.Nodup) (read : Nat → α) (p : α → Bool)
    (f : α → α) {own : Nat} (hown : ids.find? (fun i => p (read i)) = some own) :
    ids.map (fun i => if i = own then f (read own) else read i) = updateFirst p f (ids.map read) := by
  induction ids with
  | nil => cases hown
  | cons i ids ih =>
    obtain ⟨hi, hids⟩ := List.nodup_cons.1 hids
    by_cases hp : p (read i)
    · obtain rfl : i = own := by simpa [hp] using hown
      have hrest : ids.map (fun j => if j = i then f (read i) else read j) = ids.map read := by
        refine List.map_congr_left fun j hj => if_neg ?_
        rintro rfl
        exact hi hj
      simp [updateFirst, hp, hrest]
    · have hown' : ids.find? (fun i => p (read i)) = some own := by simpa [hp] using hown
      have hne : i ≠ own := by
        rintro rfl
        exact hi (List.mem_of_find?_eq_some hown')
      simp [updateFirst, hp, hne, ih hids hown']

namespace Bequest

variable {α : Type} (b : Bequest α)

/-- The heir's members after one member of the superclass, and the conflicts met. -/
def hand (mine : List α) (t : α) : List α × List MemberConflict :=
  match b.passage t with
  | .stays => (mine, [])
  | .copied => (mine ++ [b.copy t], [])
  | .meets =>
    match mine.find? (b.name · == b.name t) with
    | none => (mine ++ [b.copy t], [])
    | some own =>
      (updateFirst (b.name · == b.name t) (fun a => (b.merge a t).1) mine,
        (b.merge own t).2.map fun message => (b.name t, message))

/-- The heir's members after all members of the superclass, and all conflicts. -/
def handAll (mine : List α) : List α → List α × List MemberConflict
  | [] => (mine, [])
  | t :: ts =>
    let (next, here) := b.hand mine t
    let (last, later) := handAll next ts
    (last, here ++ later)

@[simp] theorem handAll_nil (mine : List α) : b.handAll mine [] = (mine, []) := rfl

theorem handAll_cons (mine : List α) (t : α) (ts : List α) :
    b.handAll mine (t :: ts) =
      ((b.handAll (b.hand mine t).1 ts).1, (b.hand mine t).2 ++ (b.handAll (b.hand mine t).1 ts).2) := rfl

/-- The members of the superclass that an heir with the given names gets copies of. -/
def picked (carried : List String) : List α → List α
  | [] => []
  | t :: ts =>
    match b.passage t with
    | .stays => picked carried ts
    | .copied => t :: picked (carried ++ [b.name t]) ts
    | .meets => if b.name t ∈ carried then picked carried ts else t :: picked (carried ++ [b.name t]) ts

theorem mem_picked {carried : List String} {ts : List α} {t : α} (h : t ∈ b.picked carried ts) :
    t ∈ ts ∧ b.passage t ≠ .stays ∧ (b.passage t = .meets → b.name t ∉ carried) := by
  induction ts generalizing carried with
  | nil => cases h
  | cons u ts ih =>
    have keep (h : t ∈ b.picked carried ts) :
        t ∈ u :: ts ∧ b.passage t ≠ .stays ∧ (b.passage t = .meets → b.name t ∉ carried) := by
      obtain ⟨hmem, hrest⟩ := ih h
      exact ⟨List.mem_cons_of_mem _ hmem, hrest⟩
    have later {more : List String} (h : t ∈ b.picked (carried ++ more) ts) :
        t ∈ u :: ts ∧ b.passage t ≠ .stays ∧ (b.passage t = .meets → b.name t ∉ carried) := by
      obtain ⟨hmem, hpass, hname⟩ := ih h
      exact ⟨List.mem_cons_of_mem _ hmem, hpass, fun hm hc => hname hm (List.mem_append_left _ hc)⟩
    rw [picked] at h
    split at h
    · exact keep h
    · rename_i hp
      rcases List.mem_cons.1 h with rfl | h
      · simp [hp]
      · exact later h
    · rename_i hp
      split at h
      · exact keep h
      · rcases List.mem_cons.1 h with rfl | h
        · simp_all
        · exact later h

/-- `a'` is `a` after any number of merges with members of its name out of `ts`. -/
inductive Filled (ts : List α) : α → α → Prop
  | refl (a : α) : Filled ts a a
  | merge {a a' t : α} (mem : t ∈ ts) (meets : b.passage t = .meets) (same : b.name t = b.name a)
      (rest : Filled ts (b.merge a t).1 a') : Filled ts a a'

variable {b}

theorem Filled.mono {ts us : List α} (h : ∀ t ∈ ts, t ∈ us) {a a' : α} (hf : b.Filled ts a a') : b.Filled us a a' := by
  induction hf with
  | refl => exact .refl _
  | merge mem meets same _ ih => exact .merge (h _ mem) meets same ih

private theorem Filled.eq_of_forall_ne {ts : List α} {a a' : α} (h : ∀ t ∈ ts, b.name t ≠ b.name a)
    (hf : b.Filled ts a a') : a' = a := by
  cases hf with
  | refl => rfl
  | merge mem _ same _ => exact absurd same (h _ mem)

/-- What merges do not change is the same after filling. -/
theorem Filled.read_eq {β : Type} {ts : List α} {a a' : α} (hf : b.Filled ts a a') (read : α → β)
    (hread : ∀ a t, read (b.merge a t).1 = read a) : read a' = read a := by
  induction hf with
  | refl => rfl
  | merge _ _ _ _ ih => rw [ih, hread]

/-- A member merged before it is filled is filled with one member more. -/
private theorem forall₂_filled_of_updateFirst {t : α} (meets : b.passage t = .meets) {ts l l' : List α}
    (h : List.Forall₂ (b.Filled ts) (updateFirst (b.name · == b.name t) (fun a => (b.merge a t).1) l) l') :
    List.Forall₂ (b.Filled (t :: ts)) l l' := by
  have more : ∀ u ∈ ts, u ∈ t :: ts := fun u hu => List.mem_cons_of_mem t hu
  induction l generalizing l' with
  | nil =>
    rw [updateFirst] at h
    cases h
    exact .nil
  | cons a l ih =>
    rw [updateFirst] at h
    split at h
    · rename_i hname
      cases h with
      | cons first rest =>
        refine .cons (.merge List.mem_cons_self meets (beq_iff_eq.1 hname).symm (first.mono more)) ?_
        exact rest.imp fun _ _ => Filled.mono more
    · cases h with
      | cons first rest => exact .cons (first.mono more) (ih rest)

private theorem forall₂_concat {β : Type} {r : α → β → Prop} {l : List α} {x : α} {m : List β}
    (h : List.Forall₂ r (l ++ [x]) m) : ∃ l' y, m = l' ++ [y] ∧ List.Forall₂ r l l' ∧ r x y := by
  induction l generalizing m with
  | nil =>
    cases h with
    | cons first rest =>
      cases rest
      exact ⟨[], _, rfl, .nil, first⟩
  | cons a l ih =>
    cases h with
    | cons first rest =>
      obtain ⟨l', y, rfl, hl, hx⟩ := ih rest
      exact ⟨_ :: l', y, rfl, .cons first hl, hx⟩

/-- A member of the superclass stays there, is copied, or is merged with the heir's first member of its name. -/
private theorem hand_cases (b : Bequest α) (mine : List α) (t : α) :
    (b.hand mine t = (mine, []) ∧ ∀ ts, b.picked (mine.map b.name) (t :: ts) = b.picked (mine.map b.name) ts) ∨
    (b.hand mine t = (mine ++ [b.copy t], []) ∧
      ∀ ts, b.picked (mine.map b.name) (t :: ts) = t :: b.picked (mine.map b.name ++ [b.name t]) ts) ∨
    (∃ own, b.passage t = .meets ∧ mine.find? (b.name · == b.name t) = some own ∧
      b.hand mine t = (updateFirst (b.name · == b.name t) (fun a => (b.merge a t).1) mine,
        (b.merge own t).2.map fun message => (b.name t, message)) ∧
      ∀ ts, b.picked (mine.map b.name) (t :: ts) = b.picked (mine.map b.name) ts) := by
  cases hp : b.passage t with
  | stays => exact .inl ⟨by simp [hand, hp], fun ts => by simp [picked, hp]⟩
  | copied => exact .inr (.inl ⟨by simp [hand, hp], fun ts => by simp [picked, hp]⟩)
  | meets =>
    have carried : b.name t ∈ mine.map b.name ↔ (mine.find? (b.name · == b.name t)).isSome := by
      simp [List.mem_map]
    cases hf : mine.find? (b.name · == b.name t) with
    | none =>
      have absent : b.name t ∉ mine.map b.name := by simp [carried, hf]
      exact .inr (.inl ⟨by simp [hand, hp, hf], fun ts => by rw [picked, hp]; simp only [if_neg absent]⟩)
    | some own =>
      have present : b.name t ∈ mine.map b.name := by simp [carried, hf]
      refine .inr (.inr ⟨own, rfl, rfl, by simp [hand, hp, hf], fun ts => ?_⟩)
      rw [picked, hp]
      simp only [if_pos present]

/-- The heir keeps its members in their order and gets copies of those picked; copies meet later members of the
superclass like the heir's own, and are exact if the names there are distinct. -/
theorem handAll_shape (b : Bequest α) (mine ts : List α) :
    ∃ mine' added, (b.handAll mine ts).1 = mine' ++ added ∧ List.Forall₂ (b.Filled ts) mine mine' ∧
      List.Forall₂ (fun t a => b.Filled ts (b.copy t) a) (b.picked (mine.map b.name) ts) added ∧
      ((ts.map b.name).Nodup → added = (b.picked (mine.map b.name) ts).map b.copy) := by
  induction ts generalizing mine with
  | nil => exact ⟨mine, [], by simp, List.forall₂_same.2 fun a _ => .refl a, .nil, fun _ => rfl⟩
  | cons t ts ih =>
    have more : ∀ u ∈ ts, u ∈ t :: ts := fun u hu => List.mem_cons_of_mem t hu
    rw [handAll_cons]
    rcases b.hand_cases mine t with ⟨hhand, hpicked⟩ | ⟨hhand, hpicked⟩ | ⟨own, meets, -, hhand, hpicked⟩
    · obtain ⟨mine', added, hall, hmine, hadded, hexact⟩ := ih mine
      rw [hhand, hpicked]
      refine ⟨mine', added, hall, hmine.imp fun _ _ => Filled.mono more, hadded.imp fun _ _ => Filled.mono more, ?_⟩
      exact fun hnames => hexact (List.nodup_cons.1 hnames).2
    · obtain ⟨mine', added, hall, hmine, hadded, hexact⟩ := ih (mine ++ [b.copy t])
      obtain ⟨mine', a, rfl, hmine, ha⟩ := forall₂_concat hmine
      have hnames : (mine ++ [b.copy t]).map b.name = mine.map b.name ++ [b.name t] := by simp [b.name_copy]
      rw [hnames] at hadded hexact
      rw [hhand, hpicked]
      refine ⟨mine', a :: added, by simp [hall], hmine.imp fun _ _ => Filled.mono more,
        .cons (ha.mono more) (hadded.imp fun _ _ => Filled.mono more), fun hdistinct => ?_⟩
      obtain ⟨hfresh, hdistinct⟩ := List.nodup_cons.1 hdistinct
      -- No later member has the name of the copy, so nothing is merged into it.
      have hcopy : a = b.copy t := by
        refine ha.eq_of_forall_ne fun u hu hname => hfresh ?_
        rw [← b.name_copy t, ← hname]
        exact List.mem_map_of_mem hu
      rw [hcopy, hexact hdistinct, List.map_cons]
    · obtain ⟨mine', added, hall, hmine, hadded, hexact⟩ :=
        ih (updateFirst (b.name · == b.name t) (fun a => (b.merge a t).1) mine)
      rw [map_updateFirst _ fun a => b.name_merge a t] at hadded hexact
      rw [hhand, hpicked]
      refine ⟨mine', added, hall, forall₂_filled_of_updateFirst meets hmine, hadded.imp fun _ _ => Filled.mono more, ?_⟩
      exact fun hnames => hexact (List.nodup_cons.1 hnames).2

/-! ### Agreement -/

private theorem mem_updateFirst {p : α → Bool} (f : α → α) {l : List α} {own : α} (hown : l.find? p = some own) :
    f own ∈ updateFirst p f l ∧ ∀ a ∈ l, a ∈ updateFirst p f l ∨ a = own := by
  induction l with
  | nil => cases hown
  | cons x l ih =>
    by_cases hx : p x
    · obtain rfl : x = own := by simpa [hx] using hown
      simp only [updateFirst, if_pos hx]
      refine ⟨List.mem_cons_self, fun a ha => ?_⟩
      rcases List.mem_cons.1 ha with rfl | ha
      · exact .inr rfl
      · exact .inl (List.mem_cons_of_mem _ ha)
    · obtain ⟨hmem, hkeep⟩ := ih (by simpa [hx] using hown)
      simp only [updateFirst, if_neg hx]
      refine ⟨List.mem_cons_of_mem _ hmem, fun a ha => ?_⟩
      rcases List.mem_cons.1 ha with rfl | ha
      · exact .inl List.mem_cons_self
      · exact (hkeep a ha).imp_left (List.mem_cons_of_mem _)

/-- What merges without conflicts keep, some member has in the end if some member had it before. -/
private theorem exists_mem_handAll (b : Bequest α) {q : α → Prop}
    (keep : ∀ a t, (b.merge a t).2 = [] → q a → q (b.merge a t).1)
    {mine ts : List α} (clean : (b.handAll mine ts).2 = []) {a : α} (ha : a ∈ mine) (hq : q a) :
    ∃ a' ∈ (b.handAll mine ts).1, q a' := by
  induction ts generalizing mine a with
  | nil => exact ⟨a, ha, hq⟩
  | cons t ts ih =>
    rw [handAll_cons] at clean ⊢
    obtain ⟨here, later⟩ := List.append_eq_nil_iff.1 clean
    rcases b.hand_cases mine t with ⟨hhand, -⟩ | ⟨hhand, -⟩ | ⟨own, -, hfind, hhand, -⟩
    · exact ih later (by rwa [hhand]) hq
    · exact ih later (by rw [hhand]; exact List.mem_append_left _ ha) hq
    · have hconflicts : (b.merge own t).2 = [] := by simpa [hhand] using here
      obtain ⟨hmem, hkeep⟩ := mem_updateFirst (fun a => (b.merge a t).1) hfind
      rcases hkeep a ha with hstay | rfl
      · exact ih later (by rwa [hhand]) hq
      · exact ih later (by rwa [hhand]) (keep a t hconflicts hq)

/-- Without conflicts, the heir has a member that agrees with each member of the superclass that does not stay there. -/
theorem exists_agreeing_of_handAll (b : Bequest α) {r : α → α → Prop} (copied : ∀ t, r (b.copy t) t)
    (merged : ∀ a t, b.passage t = .meets → (b.merge a t).2 = [] → r (b.merge a t).1 t)
    (keep : ∀ a u t, (b.merge a u).2 = [] → r a t → r (b.merge a u).1 t)
    {mine ts : List α} (clean : (b.handAll mine ts).2 = []) {t : α} (ht : t ∈ ts) (hpass : b.passage t ≠ .stays) :
    ∃ a ∈ (b.handAll mine ts).1, b.name a = b.name t ∧ r a t := by
  -- A member that agrees still does after merges with later members of its name.
  have keep' : ∀ a u, (b.merge a u).2 = [] → b.name a = b.name t ∧ r a t →
      b.name (b.merge a u).1 = b.name t ∧ r (b.merge a u).1 t := by
    rintro a u hclean ⟨hname, hr⟩
    exact ⟨by rw [b.name_merge, hname], keep a u t hclean hr⟩
  induction ts generalizing mine with
  | nil => cases ht
  | cons u ts ih =>
    rw [handAll_cons] at clean ⊢
    obtain ⟨here, later⟩ := List.append_eq_nil_iff.1 clean
    rcases List.mem_cons.1 ht with rfl | ht
    · cases hp : b.passage t with
      | stays => exact absurd hp hpass
      | copied =>
        refine b.exists_mem_handAll keep' later (a := b.copy t) ?_ ⟨b.name_copy t, copied t⟩
        simp [hand, hp]
      | meets =>
        cases hfind : mine.find? (b.name · == b.name t) with
        | none =>
          refine b.exists_mem_handAll keep' later (a := b.copy t) ?_ ⟨b.name_copy t, copied t⟩
          simp [hand, hp, hfind]
        | some own =>
          have hconflicts : (b.merge own t).2 = [] := by simpa [hand, hp, hfind] using here
          have hname : b.name own = b.name t := by simpa using List.find?_some hfind
          refine b.exists_mem_handAll keep' later (a := (b.merge own t).1) ?_
            ⟨by rw [b.name_merge, hname], merged own t hp hconflicts⟩
          have hmem := (mem_updateFirst (fun a => (b.merge a t).1) hfind).1
          simpa [hand, hp, hfind] using hmem
    · exact ih later ht

/-! ### Distinct names -/

private theorem find?_updateFirst {p : α → Bool} {f : α → α} (hf : ∀ a, p (f a) = p a) {a : α} {l : List α}
    (h : l.find? p = some a) : (updateFirst p f l).find? p = some (f a) := by
  induction l with
  | nil => cases h
  | cons x l ih =>
    rw [updateFirst]
    by_cases hx : p x
    · obtain rfl : x = a := by simpa [hx] using h
      simp [hx, hf]
    · have hrest : l.find? p = some a := by simpa [hx] using h
      simpa [hx] using ih hrest

private theorem find?_updateFirst_of_not {p q : α → Bool} {f : α → α} (hf : ∀ a, p a → q (f a) = false)
    (hpq : ∀ a, p a → q a = false) (l : List α) : (updateFirst p f l).find? q = l.find? q := by
  induction l with
  | nil => rfl
  | cons x l ih =>
    rw [updateFirst]
    split
    · rename_i hx
      simp [hf x hx, hpq x hx]
    · rw [List.find?_cons, List.find?_cons, ih]

/-- What becomes of the heir's first member of a name when one member of the superclass is handed down. -/
private theorem find?_hand (b : Bequest α) {a : α} {mine : List α} (ha : mine.find? (b.name · == b.name a) = some a)
    (t : α) : (b.hand mine t).1.find? (b.name · == b.name a) =
      some (if b.passage t = .meets ∧ b.name t = b.name a then (b.merge a t).1 else a) := by
  cases hp : b.passage t with
  | stays => simp [hand, hp, ha]
  | copied => simp [hand, hp, ha]
  | meets =>
    cases hfind : mine.find? (b.name · == b.name t) with
    | none =>
      have hne : b.name t ≠ b.name a := by
        intro heq
        rw [heq, ha] at hfind
        cases hfind
      simp [hand, hp, hfind, ha, hne]
    | some own =>
      simp only [hand, hp, hfind, true_and]
      by_cases heq : b.name t = b.name a
      · rw [if_pos heq, heq]
        exact find?_updateFirst (fun x => by rw [b.name_merge]) ha
      · rw [if_neg heq, find?_updateFirst_of_not ?_ ?_ mine, ha]
        · intro x hx
          rw [b.name_merge, beq_iff_eq.1 hx]
          simpa using heq
        · intro x hx
          rw [beq_iff_eq.1 hx]
          simpa using heq

private theorem find?_handAll_of_forall_ne (b : Bequest α) {a : α} {mine ts : List α}
    (ha : mine.find? (b.name · == b.name a) = some a) (h : ∀ t ∈ ts, b.name t ≠ b.name a) :
    (b.handAll mine ts).1.find? (b.name · == b.name a) = some a := by
  induction ts generalizing mine with
  | nil => exact ha
  | cons t ts ih =>
    rw [handAll_cons]
    refine ih ?_ fun u hu => h u (List.mem_cons_of_mem _ hu)
    rw [b.find?_hand ha, if_neg fun hmeets => h t List.mem_cons_self hmeets.2]

/-- Without conflicts, the heir's first member of a name is merged with the one member of the superclass that has it. -/
private theorem find?_handAll (b : Bequest α) {a t : α} {mine ts : List α}
    (ha : mine.find? (b.name · == b.name a) = some a) (hts : (ts.map b.name).Nodup)
    (clean : (b.handAll mine ts).2 = []) (ht : t ∈ ts) (hmeets : b.passage t = .meets) (hname : b.name t = b.name a) :
    (b.merge a t).2 = [] ∧ (b.handAll mine ts).1.find? (b.name · == b.name a) = some (b.merge a t).1 := by
  induction ts generalizing mine with
  | nil => cases ht
  | cons u ts ih =>
    obtain ⟨hfresh, hts⟩ := List.nodup_cons.1 hts
    rw [handAll_cons] at clean ⊢
    obtain ⟨here, later⟩ := List.append_eq_nil_iff.1 clean
    have hfirst := b.find?_hand ha u
    rcases List.mem_cons.1 ht with rfl | ht
    · rw [if_pos ⟨hmeets, hname⟩] at hfirst
      refine ⟨by simpa [hand, hmeets, hname, ha] using here, ?_⟩
      rw [← b.name_merge a t] at hfirst ⊢
      refine b.find?_handAll_of_forall_ne hfirst fun v hv heq => hfresh ?_
      rw [hname, ← b.name_merge a t, ← heq]
      exact List.mem_map_of_mem hv
    · have hother : ¬ (b.passage u = .meets ∧ b.name u = b.name a) := by
        rintro ⟨-, heq⟩
        rw [heq, ← hname] at hfresh
        exact hfresh (List.mem_map_of_mem ht)
      rw [if_neg hother] at hfirst
      exact ih hfirst hts later ht

/-- A member that goes to the heir and meets none of its name there is picked. -/
private theorem mem_picked_of_not_mem (b : Bequest α) {carried : List String} {ts : List α} {t : α} (ht : t ∈ ts)
    (hts : (ts.map b.name).Nodup) (hpass : b.passage t ≠ .stays)
    (hcarried : b.passage t = .meets → b.name t ∉ carried) : t ∈ b.picked carried ts := by
  induction ts generalizing carried with
  | nil => cases ht
  | cons u ts ih =>
    obtain ⟨hfresh, hts⟩ := List.nodup_cons.1 hts
    rw [picked]
    rcases List.mem_cons.1 ht with rfl | ht
    · cases hp : b.passage t with
      | stays => exact absurd hp hpass
      | copied => exact List.mem_cons_self
      | meets => simp [hcarried hp]
    · have hcarried' : b.passage t = .meets → b.name t ∉ carried ++ [b.name u] := by
        intro hmeets hmem
        rcases List.mem_append.1 hmem with hmem | hmem
        · exact hcarried hmeets hmem
        · rw [← List.mem_singleton.1 hmem] at hfresh
          exact hfresh (List.mem_map_of_mem ht)
      split
      · exact ih ht hts hcarried
      · exact List.mem_cons_of_mem _ (ih ht hts hcarried')
      · split
        · exact ih ht hts hcarried
        · exact List.mem_cons_of_mem _ (ih ht hts hcarried')

/-- Where names are distinct, an heir has a member of a name from above in one of two ways: as a copy, or declared by
itself and merged. -/
theorem eq_copy_or_merge (b : Bequest α) {mine ts : List α} (hts : (ts.map b.name).Nodup)
    (hall : ((b.handAll mine ts).1.map b.name).Nodup) (clean : (b.handAll mine ts).2 = []) {a t : α} (ht : t ∈ ts)
    (hpass : b.passage t ≠ .stays) (ha : a ∈ (b.handAll mine ts).1) (hname : b.name a = b.name t) :
    a = b.copy t ∨ ∃ own ∈ mine, (b.merge own t).2 = [] ∧ a = (b.merge own t).1 := by
  have only : ∀ x ∈ (b.handAll mine ts).1, b.name x = b.name t → a = x := fun x hx heq =>
    List.inj_on_of_nodup_map hall ha hx (hname.trans heq.symm)
  by_cases hfirst : b.passage t = .meets ∧ ∃ own, mine.find? (b.name · == b.name t) = some own
  · obtain ⟨hmeets, own, hfind⟩ := hfirst
    have hown : b.name own = b.name t := by simpa using List.find?_some hfind
    have hmem := List.mem_of_find?_eq_some hfind
    rw [← hown] at hfind
    obtain ⟨hconflicts, hmerged⟩ := b.find?_handAll hfind hts clean ht hmeets hown.symm
    refine .inr ⟨own, hmem, hconflicts, only _ (List.mem_of_find?_eq_some hmerged) ?_⟩
    rw [b.name_merge, hown]
  · obtain ⟨mine', added, hshape, -, -, hexact⟩ := b.handAll_shape mine ts
    have hpicked : t ∈ b.picked (mine.map b.name) ts := by
      refine b.mem_picked_of_not_mem ht hts hpass fun hmeets hmem => hfirst ⟨hmeets, ?_⟩
      obtain ⟨x, hx, heq⟩ := List.mem_map.1 hmem
      exact Option.isSome_iff_exists.1 (List.find?_isSome.2 ⟨x, hx, beq_iff_eq.2 heq⟩)
    refine .inl (only (b.copy t) ?_ (b.name_copy t))
    rw [hshape, hexact hts]
    exact List.mem_append_right _ (List.mem_map_of_mem hpicked)

end Bequest

end Metamodel
