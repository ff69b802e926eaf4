import Metamodel.Json.Shape
import Metamodel.Proofs.Json.Laws
import Metamodel.Proofs.Json.Text

/-!
# The decoders are lawful

The decoders read back what is written for their types, and the texts of plain values are parsed as these, so that
declarations may rely on the decoders as a library (`LawfulLibrary Decoder`).
-/

namespace Metamodel.Json

private theorem decode_eq_ok_iff {α : Type} {decoder : Decoder α} {depth : Nat} {j : Json} {a : α} :
    Library.decode decoder depth j = .ok a ↔ decoder depth j = .ok a := by
  show (decoder depth j).mapError _ = .ok a ↔ _
  cases decoder depth j <;> simp [Except.mapError]

namespace Decode

variable {α β : Type}

/-! ### Scalars -/

/-- The digits of an integer denote it, if it has 64 bits. -/
private theorem int?_toDigits {i : Int} (hfirst : Int64.minValue.toInt ≤ i) (hlast : i < UInt64.size) :
    Number.int? ⟨i < 0, Nat.toDigits 10 i.natAbs, [], none⟩ = some i := by
  have hplain : ¬ (([] : List Char) ≠ [] ∨ (none : Option Int) ≠ none) := by simp
  simp only [Number.int?, if_neg hplain, Nat.ofDigitChars_ten_toDigits]
  by_cases hneg : i < 0
  · have hfits : 0 < i.natAbs ∧ i.natAbs ≤ 1 <<< 63 := by
      have hbound : Int64.minValue.toInt = -(1 <<< 63 : Nat) := rfl
      omega
    rw [if_pos (decide_eq_true hneg), if_pos hfits]
    congr 1
    omega
  · have hfits : i.natAbs < UInt64.size := by omega
    rw [if_neg (by simpa using hneg), if_pos hfits]
    congr 1
    omega

private theorem integer_int (wanted : String) {first last i : Int} (hfirst : Int64.minValue.toInt ≤ first)
    (hlast : last < UInt64.size) (hi : first ≤ i ∧ i ≤ last) (depth : Nat) :
    integer wanted first last depth (int i) = .ok i := by
  simp only [int, integer, int?_toDigits (Int.le_trans hfirst hi.1) (Int.lt_of_le_of_lt hi.2 hlast), if_pos hi]

private theorem uint32_toNat (n : UInt32) (depth : Nat) : uint32 depth (nat n.toNat) = .ok n := by
  have hlast : n.toNat < UInt32.size := n.toNat_lt_size
  rw [uint32, nat, integer_int "u32" (by decide) (by decide) ⟨by omega, by omega⟩, Except.map, Int.toNat_natCast,
    UInt32.ofNat_toNat]

private theorem int32_toInt (i : Int32) (depth : Nat) : int32 depth (int i.toInt) = .ok i := by
  rw [int32, integer_int "i32" (by decide) (by decide) ⟨i.minValue_le_toInt, i.toInt_le⟩, Except.map, Int32.ofInt_toInt]

private theorem int64_toInt (i : Int64) (depth : Nat) : int64 depth (int i.toInt) = .ok i := by
  rw [int64, integer_int "i64" (by decide) (by decide) ⟨i.minValue_le_toInt, i.toInt_le⟩, Except.map, Int64.ofInt_toInt]

private theorem variant_text {table : List (String × α)} {name : String} {a : α} (h : table.lookup name = some a)
    (depth : Nat) : variant table depth (Json.text name) = .ok a := by
  simp only [Json.text, variant, variant.named, h]

/-! ### Containers -/

private theorem mapM_map_eq_ok {ε : Type} {f : β → Except ε α} {g : α → β} {as : List α}
    (h : ∀ a ∈ as, f (g a) = .ok a) : (as.map g).mapM f = .ok as := by
  induction as with
  | nil => rfl
  | cons a as ih =>
    rw [List.map_cons, List.mapM_cons, h a List.mem_cons_self, ih fun b hb => h b (List.mem_cons_of_mem _ hb)]
    rfl

private theorem nameMap_record {decoder : Decoder α} {encode : α → Json} {m : NameMap α} {depth : Nat}
    (h : ∀ e ∈ m.entries, decoder depth (encode e.2) = .ok e.2) :
    nameMap decoder (depth + 1) (Json.record (m.entries.map fun e => (e.1, encode e.2))) = .ok m := by
  rw [Json.record, List.map_map, nameMap, mapM_map_eq_ok]
  · exact congrArg Except.ok m.ofList_entries
  · intro e he
    simp [h e he, Except.map]

/-! ### Records -/

section Records

variable {fields : Fields Decoder α} {written : List (String × Json)} {a : α}

/-- Fields are read among members of which the first of each name is the one that is written. -/
private theorem fieldsValue_of_reads {depth : Nat} {missing : String → ShapeError}
    {members : List (Option String × Json)} (h : fields.Reads written a)
    (hdepth : ∀ m ∈ written, m.2.nesting ≤ depth)
    (hmembers : ∀ m ∈ written, members.lookup (some m.1) = some m.2) :
    fieldsValue depth missing members fields = .ok a := by
  induction h with
  | const a => rfl
  | @next α β before written g decoder j a hbefore name h absent ih =>
    have hfront := ih (fun m hm => hdepth m (List.mem_append_left _ hm)) fun m hm =>
      hmembers m (List.mem_append_left _ hm)
    have hlast : (name, j) ∈ written ++ [(name, j)] := List.mem_append_right _ List.mem_cons_self
    have hlookup : members.lookup (some name) = some j := hmembers _ hlast
    have hvalue : decoder depth j = .ok a := decode_eq_ok_iff.1 (h depth (hdepth _ hlast))
    obtain ⟨position, hposition⟩ : ∃ position, members.findIdx? (·.1 == some name) = some position := by
      obtain ⟨front, back, rfl, -⟩ := List.lookup_eq_some_iff.1 hlookup
      exact Option.isSome_iff_exists.1 (by simp)
    -- The position matters only for the order of problems.
    simp only [fieldsValue, fieldValue, hfront, hposition, hlookup, hvalue]
    rfl

/-- With different names, each member is the first of its name. -/
private theorem lookup_record (hnames : (written.map (·.1)).Nodup) {m : String × Json} (hm : m ∈ written) :
    (written.map fun (name, value) => (some name, value)).lookup (some m.1) = some m.2 := by
  induction written with
  | nil => cases hm
  | cons e rest ih =>
    obtain ⟨hfirst, hrest⟩ := List.nodup_cons.1 hnames
    rw [List.map_cons, List.lookup_cons]
    rcases List.mem_cons.1 hm with rfl | hm
    · simp
    · have hne : m.1 ≠ e.1 := fun heq => hfirst (List.mem_map.2 ⟨m, hm, heq⟩)
      have hbeq : (some m.1 == some e.1) = false := by simpa using hne
      simpa [hbeq] using ih hrest hm

private theorem nameFault?_record (known : List String) (hnames : (written.map (·.1)).Nodup) :
    nameFault? known (written.map fun (name, value) => (some name, value)) = none := by
  -- Names seen before are no names of what is still to come.
  suffices h : ∀ position (seen : List String), (∀ m ∈ written, m.1 ∉ seen) →
      nameFault?.go known position seen (written.map fun (name, value) => (some name, value)) = none by
    exact h 0 [] fun m hm => List.not_mem_nil
  induction written with
  | nil => exact fun position seen hseen => rfl
  | cons e rest ih =>
    intro position seen hseen
    obtain ⟨hfirst, hrest⟩ := List.nodup_cons.1 hnames
    rw [List.map_cons, nameFault?.go, if_neg (hseen e List.mem_cons_self)]
    refine ih hrest _ _ fun m hm => ?_
    have hold := hseen m (List.mem_cons_of_mem _ hm)
    split
    · exact List.not_mem_cons_of_ne_of_not_mem (fun heq => hfirst (List.mem_map.2 ⟨m, hm, heq⟩)) hold
    · exact hold

private theorem record_written (name : String) (hnames : fields.names.Nodup) (h : fields.Reads written a) {depth : Nat}
    (hdepth : ∀ m ∈ written, m.2.nesting ≤ depth) : record name fields (depth + 1) (Json.record written) = .ok a := by
  have hnodup : (written.map (·.1)).Nodup := by rwa [← h.names]
  rw [Json.record, record, fieldsValue_of_reads h hdepth fun m hm => lookup_record hnodup hm,
    nameFault?_record _ hnodup]

end Records

/-! ### Recursion -/

/-- Values with no more containers than there are levels are read. -/
private theorem reads_unfolded {level : Decoder α → Decoder α} {encode : α → Json}
    (h : ∀ inner a, (∀ b, (encode b).nesting < (encode a).nesting → Reads inner (encode b) b) →
      Reads (level inner) (encode a) a) (levels : Nat) {a : α} (ha : (encode a).nesting ≤ levels) :
    Reads (unfolded level levels) (encode a) a := by
  induction levels generalizing a with
  | zero => exact h _ a fun b hb => absurd (Nat.lt_of_lt_of_le hb ha) (Nat.not_lt_zero _)
  | succ levels ih => exact h _ a fun b hb => ih (Nat.le_of_lt_succ (Nat.lt_of_lt_of_le hb ha))

end Decode

/-! ### All laws -/

private theorem Plain.wellFormed {j : Json} (h : j.Plain) : j.WellFormed := by
  induction h with
  | null => exact .null
  | bool b => exact .bool b
  | int _ _ => exact .number (wellFormed_toDigits _ _)
  | text s => exact .string s
  | array _ ih => exact .array ih
  | record _ ih =>
    refine .object (fun m hm => ?_) (fun m hm => ?_) <;> obtain ⟨e, he, rfl⟩ := List.mem_map.1 hm
    · rfl
    · exact ih e he

instance : LawfulLibrary Decoder where
  parse_print plain _ := ofText?_toPretty plain.wellFormed
  reads_text _ _ _ := decode_eq_ok_iff.2 rfl
  reads_bool _ _ _ := decode_eq_ok_iff.2 rfl
  reads_uint32 n depth _ := decode_eq_ok_iff.2 (Decode.uint32_toNat n depth)
  reads_int32 i depth _ := decode_eq_ok_iff.2 (Decode.int32_toInt i depth)
  reads_int64 i depth _ := decode_eq_ok_iff.2 (Decode.int64_toInt i depth)
  reads_option_none _ _ _ := decode_eq_ok_iff.2 rfl
  reads_option_some {α decoder j a} hj h depth hdepth := by
    have hvalue := decode_eq_ok_iff.1 (h depth hdepth)
    refine decode_eq_ok_iff.2 ?_
    show Decode.option decoder depth j = .ok (some a)
    rw [Decode.option, hvalue]
    · rfl
    · exact hj
  reads_variant h depth _ := decode_eq_ok_iff.2 (Decode.variant_text h depth)
  reads_list h depth hdepth := by
    obtain ⟨inner, rfl, hitems⟩ := exists_nesting_list_le hdepth
    exact decode_eq_ok_iff.2 (Decode.mapM_map_eq_ok fun a ha => decode_eq_ok_iff.1 (h a ha inner (hitems a ha)))
  reads_nameMap h depth hdepth := by
    obtain ⟨inner, rfl, hmembers⟩ := exists_nesting_record_le hdepth
    refine decode_eq_ok_iff.2 (Decode.nameMap_record fun e he => ?_)
    exact decode_eq_ok_iff.1 (h e he inner (hmembers _ (List.mem_map_of_mem he)))
  reads_record name _ _ _ hnames h depth hdepth := by
    obtain ⟨inner, rfl, hmembers⟩ := exists_nesting_record_le hdepth
    exact decode_eq_ok_iff.2 (Decode.record_written name hnames h hmembers)
  reads_recursive h _ depth hdepth := by
    have hlevels := Decode.reads_unfolded h depth hdepth depth hdepth
    exact decode_eq_ok_iff.2 (decode_eq_ok_iff.1 hlevels)

end Metamodel.Json
