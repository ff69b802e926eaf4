import Metamodel.Text.Integer

/-!
# Plain integers

Several texts denote one integer: a plus sign, zeros in front and the sign of zero do not count.  A text without these
is plain.  It is the text that its value is printed as (`toList_repr_of_integer?`), so no other plain text has that
value (`eq_of_integer?`).
-/

namespace Metamodel.Text

/-- There is no plus sign, no zero in front of another digit and no sign in front of a zero. -/
def isPlainInteger : List Char → Bool
  | '+' :: _ => false
  | '-' :: '0' :: _ => false
  | '0' :: ds => ds.isEmpty
  | _ => true

variable {cs ds : List Char} {i : Int} {n : Nat}

private theorem exists_digitChar_of_isDigit {c : Char} (h : c.isDigit) : ∃ d < 10, d.digitChar = c := by
  have hrange : 48 ≤ c.toNat ∧ c.toNat ≤ 57 := by
    simpa [Char.isDigit, UInt32.le_iff_toNat_le] using h
  refine ⟨c.toNat - 48, by omega, Char.toNat_inj.1 ?_⟩
  rw [Nat.toNat_digitChar_of_lt_ten (by omega)]
  omega

/-- Digits behind a positive number continue it. -/
private theorem toDigits_append (hn : 0 < n) (hds : ∀ d ∈ ds, d.isDigit) :
    Nat.toDigits 10 n ++ ds = Nat.toDigits 10 (Nat.ofDigitChars 10 ds n) := by
  induction ds generalizing n with
  | nil => simp
  | cons c ds ih =>
    obtain ⟨hc, hrest⟩ := List.forall_mem_cons.1 hds
    obtain ⟨d, hd, rfl⟩ := exists_digitChar_of_isDigit hc
    calc Nat.toDigits 10 n ++ d.digitChar :: ds
      _ = (Nat.toDigits 10 n ++ Nat.toDigits 10 d) ++ ds := by simp [Nat.toDigits_of_lt_base hd]
      _ = Nat.toDigits 10 (10 * n + d) ++ ds := by rw [Nat.toDigits_append_toDigits (by decide) hn hd]
      _ = Nat.toDigits 10 (Nat.ofDigitChars 10 ds (10 * n + d)) := ih (by omega) hrest
      _ = Nat.toDigits 10 (Nat.ofDigitChars 10 (d.digitChar :: ds) n) := by
        rw [Nat.ofDigitChars_cons_digitChar_of_lt_ten hd]

/-- Digits are those of their value, unless there is a zero in front of another digit. -/
private theorem toDigits_of_natural? (h : natural? cs = some n) (hzero : ∀ ds, cs = '0' :: ds → ds = []) :
    Nat.toDigits 10 n = cs := by
  simp only [natural?, Option.ite_none_right_eq_some, Option.some.injEq, List.all_eq_true] at h
  obtain ⟨⟨hne, hdigits⟩, rfl⟩ := h
  obtain ⟨c, ds, rfl⟩ := List.exists_cons_of_ne_nil hne
  obtain ⟨hc, hrest⟩ := List.forall_mem_cons.1 hdigits
  obtain ⟨d, hd, rfl⟩ := exists_digitChar_of_isDigit hc
  rw [Nat.ofDigitChars_cons_digitChar_of_lt_ten hd, Nat.mul_zero, Nat.zero_add]
  rcases Nat.eq_zero_or_pos d with rfl | hpos
  · obtain rfl := hzero ds rfl
    rfl
  · rw [← toDigits_append hpos hrest, Nat.toDigits_of_lt_base hd]
    rfl

theorem toList_repr_of_integer? (h : integer? cs = some i) (hplain : isPlainInteger cs) : i.repr.toList = cs := by
  unfold integer? at h
  split at h
  · cases hplain
  · rename_i ds
    obtain ⟨n, hn, rfl⟩ := Option.map_eq_some_iff.1 h
    have hzero : ∀ es, ds ≠ '0' :: es := by
      rintro es rfl
      cases hplain
    have hdigits := toDigits_of_natural? hn fun es hes => absurd hes (hzero es)
    have hpos : 0 < n := by
      refine Nat.pos_of_ne_zero ?_
      rintro rfl
      exact hzero [] hdigits.symm
    rw [Int.repr_eq_if, if_neg (by simpa using Nat.ne_of_gt hpos)]
    simp [hdigits]
  · obtain ⟨n, hn, rfl⟩ := Option.map_eq_some_iff.1 h
    have hdigits := toDigits_of_natural? hn fun ds hds => by
      subst hds
      exact List.isEmpty_iff.1 hplain
    rw [Int.ofNat_eq_natCast, Int.repr_eq_if, if_pos (Int.natCast_nonneg n)]
    simp [hdigits]

theorem eq_of_integer? (hcs : integer? cs = some i) (hds : integer? ds = some i) (hplain : isPlainInteger cs)
    (hplain' : isPlainInteger ds) : cs = ds :=
  (toList_repr_of_integer? hcs hplain).symm.trans (toList_repr_of_integer? hds hplain')

end Metamodel.Text
