import HttpRelay.Proofs.Text.Elements
import HttpRelay.Text.Number

/-!
# Numerals in lists

The texts in which a decimal number is found: digits with padding around them, and perhaps a sign
in front.

* `IsNumeral`: a number in digits, behind a sign and with padding around both;
* `isNumeral_spaceOrTab_iff`: with spaces and tabs for padding, what is left when these are trimmed;
* `unsigned?_trim_eq_some_iff`: the texts in which a number is found.
-/

namespace HttpRelay.Text

/-- A number in decimal digits behind a sign, with padding around both. -/
def IsNumeral (padding : Char → Bool) (sign : List Char) (n : Nat) (s : String) : Prop :=
  ∃ before digits after, s.toList = before ++ (sign ++ digits) ++ after ∧
    (∀ c ∈ before, padding c = true) ∧ (∀ c ∈ after, padding c = true) ∧
    decimal? digits = some n

/-- A numeral has a digit, and nothing but digits. -/
theorem digits_of_decimal? {digits : List Char} {n : Nat} (h : decimal? digits = some n) :
    digits ≠ [] ∧ ∀ c ∈ digits, c.isDigit = true := by
  rw [decimal?, Option.ite_none_right_eq_some] at h
  exact ⟨h.1.1, List.all_eq_true.mp h.1.2⟩

/-- Digits are not blank, and no sign. -/
theorem bounds_of_isDigit {c : Char} (h : c.isDigit = true) : 48 ≤ c.toNat ∧ c.toNat ≤ 57 := by
  simp only [Char.isDigit, Bool.and_eq_true, decide_eq_true_eq, UInt32.le_iff_toNat_le] at h
  exact h

theorem isBlank_eq_false_of_isDigit {c : Char} (h : c.isDigit = true) : isBlank c = false := by
  have hbounds := bounds_of_isDigit h
  exact isBlank_eq_false_of_visible (by omega)

theorem isBlank_of_isSpaceOrTab {c : Char} (h : isSpaceOrTab c = true) : isBlank c = true := by
  rw [isSpaceOrTab, Bool.or_eq_true, beq_iff_eq, beq_iff_eq] at h
  rcases h with rfl | rfl <;> decide

/-- With spaces and tabs only around it, a numeral is one with blanks around it. -/
theorem IsNumeral.blank {sign : List Char} {n : Nat} {s : String}
    (h : IsNumeral isSpaceOrTab sign n s) : IsNumeral isBlank sign n s := by
  obtain ⟨before, digits, after, hs, hbefore, hafter, hdigits⟩ := h
  exact ⟨before, digits, after, hs, fun c hc => isBlank_of_isSpaceOrTab (hbefore c hc),
    fun c hc => isBlank_of_isSpaceOrTab (hafter c hc), hdigits⟩

/-- Without a sign, and with spaces and tabs around it, a numeral is what is left when these are
trimmed off. -/
theorem isNumeral_spaceOrTab_iff {n : Nat} {s : String} :
    IsNumeral isSpaceOrTab [] n s ↔ decimal? (trimList isSpaceOrTab s.toList) = some n := by
  constructor
  · rintro ⟨before, digits, after, hs, hbefore, hafter, hdigits⟩
    have hcore : ∀ c ∈ [] ++ digits, isSpaceOrTab c = false := by
      intro c hc
      have hblank := isBlank_eq_false_of_isDigit ((digits_of_decimal? hdigits).2 c hc)
      exact Bool.eq_false_iff.mpr fun hspace =>
        Bool.eq_false_iff.mp hblank (isBlank_of_isSpaceOrTab hspace)
    rw [hs, trimList_padded hbefore hcore hafter]
    exact hdigits
  · intro hdigits
    obtain ⟨before, after, hs, hbefore, hafter⟩ := exists_padding isSpaceOrTab s.toList
    exact ⟨before, _, after, hs, hbefore, hafter, hdigits⟩

instance (n : Nat) (s : String) : Decidable (IsNumeral isSpaceOrTab [] n s) :=
  decidable_of_iff _ isNumeral_spaceOrTab_iff.symm

/-- A numeral without a sign is found. -/
theorem unsigned?_of_digits {bound n : Nat} {digits : List Char}
    (hdigits : decimal? digits = some n) (hbound : n < bound) :
    unsigned? bound (String.ofList digits) = some n := by
  obtain ⟨hne, hall⟩ := digits_of_decimal? hdigits
  rw [unsigned?, String.toList_ofList]
  cases digits with
  | nil => exact absurd rfl hne
  | cons c digits =>
    have hplus : c ≠ '+' := by
      rintro rfl
      exact absurd (hall '+' List.mem_cons_self) (by decide)
    simp [hplus, hdigits, hbound]

/-- A number is found in a text that is trimmed exactly if the text is a numeral with blanks
around it, behind a plus sign or none. -/
theorem unsigned?_trim_eq_some_iff {bound n : Nat} {s : String} :
    unsigned? bound (trim s) = some n ↔
      n < bound ∧ (IsNumeral isBlank [] n s ∨ IsNumeral isBlank ['+'] n s) := by
  constructor
  · intro hread
    obtain ⟨before, after, hs, hbefore, hafter⟩ := exists_padding isBlank s.toList
    rw [trim, trimOf, unsigned?, String.toList_ofList, Option.filter_eq_some_iff] at hread
    obtain ⟨hdigits, hbound⟩ := hread
    refine ⟨by simpa using hbound, ?_⟩
    -- the sign, if any, is the first character that trimming leaves
    split at hdigits
    next digits hplus =>
      rw [hplus] at hs
      exact .inr ⟨before, digits, after, hs, hbefore, hafter, hdigits⟩
    next => exact .inl ⟨before, _, after, hs, hbefore, hafter, hdigits⟩
  · rintro ⟨hbound, ⟨before, digits, after, hs, hbefore, hafter, hdigits⟩ |
      ⟨before, digits, after, hs, hbefore, hafter, hdigits⟩⟩
    · have hcore : ∀ c ∈ [] ++ digits, isBlank c = false := fun c hc =>
        isBlank_eq_false_of_isDigit ((digits_of_decimal? hdigits).2 c hc)
      rw [trim, trimOf, hs, trimList_padded hbefore hcore hafter]
      exact unsigned?_of_digits hdigits hbound
    · have hcore : ∀ c ∈ ['+'] ++ digits, isBlank c = false := by
        intro c hc
        rcases List.mem_cons.mp hc with rfl | hc
        · decide
        · exact isBlank_eq_false_of_isDigit ((digits_of_decimal? hdigits).2 c hc)
      rw [trim, trimOf, hs, trimList_padded hbefore hcore hafter, unsigned?]
      simp [hdigits, hbound]

end HttpRelay.Text
