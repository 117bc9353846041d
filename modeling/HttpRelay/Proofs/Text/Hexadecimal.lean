import HttpRelay.Text.Number

/-!
# Hexadecimal numerals

A number written in upper-case hexadecimal is read back, from as many digits as its size needs.

* `exists_digits`: the digits of a number, in any base;
* `hexadecimal?_hexUpper`: reading undoes writing;
* `length_hexUpper_le`: a number of `k` half octets has at most `k` digits;
* `isHexDigit_of_mem_hexUpper`: only digits are written.
-/

namespace HttpRelay.Text

/-- The digits of a number, each below the base, spell the number. None of them is a zero in front
of another one. -/
theorem exists_digits {base : Nat} (hbase : 1 < base) (n : Nat) :
    ∃ ds : List Nat, ds ≠ [] ∧ (∀ d ∈ ds, d < base) ∧ Nat.toDigits base n = ds.map Nat.digitChar ∧
      ofDigits base ds = n ∧ (ds.head? = some 0 → ds = [0]) := by
  induction n using Nat.strongRecOn with
  | ind n ih =>
    rw [Nat.toDigits_eq_if hbase]
    split
    next hsmall =>
      refine ⟨[n], by simp, ?_, rfl, ?_, ?_⟩
      · intro d hd
        rw [List.mem_singleton.mp hd]
        exact hsmall
      · simp [ofDigits]
      · intro hzero
        rw [Option.some.inj hzero]
    next hlarge =>
      -- the last digit stands behind those of the quotient, which is not zero
      have hsmaller : n / base < n := Nat.div_lt_self (by omega) hbase
      obtain ⟨ds, hne, hdigit, hdigits, hvalue, hzero⟩ := ih (n / base) hsmaller
      refine ⟨ds ++ [n % base], by simp, ?_, ?_, ?_, ?_⟩
      · intro d hd
        rcases List.mem_append.mp hd with hd | hd
        · exact hdigit d hd
        · rw [List.mem_singleton.mp hd]
          exact Nat.mod_lt n (by omega)
      · rw [List.map_append, ← hdigits]
        rfl
      · rw [ofDigits, List.foldl_append]
        change ofDigits base ds * base + n % base = n
        rw [hvalue, Nat.mul_comm]
        exact Nat.div_add_mod n base
      · intro hfront
        rw [List.head?_append, Option.or_of_isSome (by simpa using hne)] at hfront
        have hquotient : n / base = 0 := by
          rw [← hvalue, hzero hfront]
          simp [ofDigits]
        exact absurd (Nat.lt_of_div_eq_zero (by omega) hquotient) hlarge

/-- A digit has its value. -/
theorem hexValue?_digitChar : ∀ d < 16, hexValue? (Nat.digitChar d) = some d := by
  decide

theorem isHexDigit_digitChar (d : Nat) (hd : d < 16) : isHexDigit (Nat.digitChar d) = true := by
  rw [isHexDigit, hexValue?_digitChar d hd]
  rfl

/-- A digit written in upper case has its value, too. -/
theorem hexValue?_toUpper : ∀ d < 16, hexValue? (Nat.digitChar d).toUpper = some d := by
  decide

/-- The values of digits written in upper case. -/
theorem filterMap_hexValue? {ds : List Nat} (h : ∀ d ∈ ds, d < 16) :
    (ds.map (Char.toUpper ∘ Nat.digitChar)).filterMap hexValue? = ds := by
  induction ds with
  | nil => rfl
  | cons d ds ih =>
    have hd : hexValue? ((Char.toUpper ∘ Nat.digitChar) d) = some d :=
      hexValue?_toUpper d (h d List.mem_cons_self)
    rw [List.map_cons, List.filterMap_cons_some hd,
      ih fun d' hd' => h d' (List.mem_cons_of_mem d hd')]

/-- The characters of a number in upper-case hexadecimal. -/
theorem toList_hexUpper (n : Nat) : (hexUpper n).toList = (hexDigits n).map Char.toUpper := by
  rw [hexUpper, String.toList_ofList]

/-- Only digits are written. -/
theorem isHexDigit_of_mem_hexUpper {n : Nat} {c : Char} (hc : c ∈ (hexUpper n).toList) :
    isHexDigit c = true := by
  obtain ⟨ds, -, hdigit, hdigits, -⟩ := exists_digits (by decide : 1 < 16) n
  rw [toList_hexUpper, hexDigits, hdigits, List.map_map] at hc
  obtain ⟨d, hd, rfl⟩ := List.mem_map.mp hc
  rw [isHexDigit, Function.comp_apply, hexValue?_toUpper d (hdigit d hd)]
  rfl

/-- Only digits are written in lower case, too. -/
theorem isHexDigit_of_mem_hex {n : Nat} {c : Char} (hc : c ∈ (hex n).toList) :
    isHexDigit c = true := by
  obtain ⟨ds, -, hdigit, hdigits, -⟩ := exists_digits (by decide : 1 < 16) n
  rw [hex, String.toList_ofList, hexDigits, hdigits] at hc
  obtain ⟨d, hd, rfl⟩ := List.mem_map.mp hc
  exact isHexDigit_digitChar d (hdigit d hd)

/-- Something is written. -/
theorem hexUpper_ne_nil (n : Nat) : (hexUpper n).toList ≠ [] := by
  rw [toList_hexUpper]
  simp [hexDigits]

/-- A number of some half octets takes no more digits than that. -/
theorem length_hexUpper_le {n k : Nat} (hk : 0 < k) (h : n < 1 <<< (4 * k)) :
    (hexUpper n).toList.length ≤ k := by
  rw [Nat.shiftLeft_eq, Nat.one_mul, Nat.pow_mul] at h
  rw [toList_hexUpper, List.length_map]
  exact (Nat.length_toDigits_le_iff (by decide) hk).mpr h

/-- Reading undoes writing. -/
theorem hexadecimal?_hexUpper (n : Nat) : hexadecimal? (hexUpper n).toList = some n := by
  have hall : (hexUpper n).toList.all isHexDigit = true :=
    List.all_eq_true.mpr fun c hc => isHexDigit_of_mem_hexUpper hc
  rw [hexadecimal?, if_pos ⟨hexUpper_ne_nil n, hall⟩]
  obtain ⟨ds, -, hdigit, hdigits, hvalue, -⟩ := exists_digits (by decide : 1 < 16) n
  rw [toList_hexUpper, hexDigits, hdigits, List.map_map, filterMap_hexValue? hdigit, hvalue]

/-- A decimal digit is a hexadecimal one. -/
theorem isHexDigit_of_isDigit {c : Char} (h : c.isDigit = true) : isHexDigit c = true := by
  have hrange : ('0' ≤ c && c ≤ '9') = true := h
  rw [isHexDigit, hexValue?, if_pos hrange]
  rfl

/-- A hexadecimal digit is an ASCII character that is no separator. -/
theorem bounds_of_isHexDigit {c : Char} (h : isHexDigit c = true) :
    48 ≤ c.toNat ∧ c.toNat ≤ 102 ∧ c.toNat ≠ 59 := by
  have hrange : ('0' ≤ c ∧ c ≤ '9') ∨ ('a' ≤ c ∧ c ≤ 'f') ∨ ('A' ≤ c ∧ c ≤ 'F') := by
    refine Decidable.byContradiction fun hnone => ?_
    simp only [not_or] at hnone
    simp [isHexDigit, hexValue?, hnone] at h
  simp only [Char.le_def, UInt32.le_iff_toNat_le] at hrange
  have hnat : c.val.toNat = c.toNat := rfl
  simp at hrange
  omega

end HttpRelay.Text
