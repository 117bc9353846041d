import HttpRelay.Net.Address
import HttpRelay.Proofs.Text.Elements
import HttpRelay.Proofs.Text.Hexadecimal

/-!
# Characters of addresses

The text of an address of either family is made of hexadecimal digits, points and colons.

* `isAddressChar_of_mem_display`: it has no other characters;
* `not_isBlank_of_mem_display`, `comma_not_mem_display`: so that it is one element of a list.
-/

namespace HttpRelay.Net.IpAddress

/-- Whether a character may stand in the text of an address. -/
def isAddressChar (c : Char) : Bool := Text.isHexDigit c || c == '.' || c == ':'

/-- Whether a text is made of characters of addresses. -/
def IsAddressText (s : String) : Prop := ∀ c ∈ s.toList, isAddressChar c = true

instance (s : String) : Decidable (IsAddressText s) :=
  decidable_of_iff (s.toList.all isAddressChar = true) List.all_eq_true

theorem IsAddressText.append {s t : String} (hs : IsAddressText s) (ht : IsAddressText t) :
    IsAddressText (s ++ t) := by
  intro c hc
  rw [String.toList_append, List.mem_append] at hc
  exact hc.elim (hs c) (ht c)

/-- Texts with separators between them. -/
theorem isAddressText_intercalate {separator : String} {parts : List String}
    (hseparator : IsAddressText separator) (hparts : ∀ part ∈ parts, IsAddressText part) :
    IsAddressText (separator.intercalate parts) := by
  rw [IsAddressText, String.toList_intercalate]
  induction parts with
  | nil => simp
  | cons part parts ih =>
    have hfirst := hparts part List.mem_cons_self
    have hothers := ih fun other hother => hparts other (List.mem_cons_of_mem _ hother)
    cases parts with
    | nil => simpa [IsAddressText] using hfirst
    | cons next parts =>
      intro c hc
      rw [List.map_cons, List.map_cons, List.intercalate_cons_cons, List.mem_append,
        List.mem_append] at hc
      exact hc.elim (fun hc => hc.elim (hfirst c) (hseparator c)) (hothers c)

theorem isAddressText_hex (n : Nat) : IsAddressText (Text.hex n) := by
  intro c hc
  rw [isAddressChar, Text.isHexDigit_of_mem_hex hc]
  rfl

theorem isAddressText_decimal (n : Nat) : IsAddressText (toString n) := by
  intro c hc
  have hdigit : c.isDigit = true :=
    Nat.isDigit_of_mem_toDigits (by decide) (by decide) (Nat.toList_repr ▸ hc)
  rw [isAddressChar, Text.isHexDigit_of_isDigit hdigit]
  rfl

theorem isAddressText_dotted (octets : List Nat) : IsAddressText (dotted octets) := by
  refine isAddressText_intercalate (by decide) fun part hpart => ?_
  obtain ⟨octet, -, rfl⟩ := List.mem_map.mp hpart
  exact isAddressText_decimal octet

theorem isAddressText_groupText (groups : List Nat) : IsAddressText (groupText groups) := by
  refine isAddressText_intercalate (by decide) fun part hpart => ?_
  obtain ⟨group, -, rfl⟩ := List.mem_map.mp hpart
  exact isAddressText_hex group

theorem isAddressText_groupsText (groups : List Nat) : IsAddressText (groupsText groups) := by
  unfold groupsText
  split
  next => exact IsAddressText.append (by decide) (isAddressText_dotted _)
  next =>
    dsimp only
    split
    next =>
      exact ((isAddressText_groupText _).append (by decide)).append (isAddressText_groupText _)
    next => exact isAddressText_groupText _

/-- The text of an address has no other characters. -/
theorem isAddressChar_of_mem_display {address : IpAddress} {c : Char}
    (hc : c ∈ address.display.toList) : isAddressChar c = true := by
  cases address with
  | v4 => exact isAddressText_dotted _ c hc
  | v6 => exact isAddressText_groupsText _ c hc

/-- The characters of addresses are visible, and none is a comma. -/
theorem bounds_of_isAddressChar {c : Char} (h : isAddressChar c = true) :
    45 < c.toNat ∧ c.toNat < 128 := by
  rw [isAddressChar, Bool.or_eq_true, Bool.or_eq_true, beq_iff_eq, beq_iff_eq] at h
  rcases h with (hdigit | rfl) | rfl
  · have hbounds := Text.bounds_of_isHexDigit hdigit
    omega
  · decide
  · decide

theorem comma_not_mem_display (address : IpAddress) : ',' ∉ address.display.toList := by
  intro hcomma
  have hbounds := bounds_of_isAddressChar (isAddressChar_of_mem_display hcomma)
  exact absurd hbounds.1 (by decide)

theorem not_isBlank_of_mem_display (address : IpAddress) :
    ∀ c ∈ address.display.toList, Text.isBlank c = false := by
  intro c hc
  have hbounds := bounds_of_isAddressChar (isAddressChar_of_mem_display hc)
  exact Text.isBlank_eq_false_of_visible (by omega)

end HttpRelay.Net.IpAddress
