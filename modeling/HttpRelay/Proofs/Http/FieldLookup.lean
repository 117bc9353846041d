import HttpRelay.Http.Body

/-!
# Field lookup

How the operations on header fields change what a lookup by name finds. Every statement about
the fields of a rewritten head goes through `Headers.getAll`, the values of one name in order.

* `getAll_append`, `getAll_remove`, `getAll_set`: the edits of a single name;
* `getAll_stripHopByHop`: the names that a hop-by-hop strip removes;
* `getAll_coding_stripHopByHop`, `getAll_length_stripHopByHop`: what it leaves of the framing;
* `framing_congr`: the framing of a body reads two names only;
* `framing_of_no_coding`: and one of them where there is no coding.
-/

namespace HttpRelay.Http

/-- Two field names are the same exactly if they agree in lower case. -/
theorem sameName_iff {a b : String} :
    sameName a b = true ↔ Text.asciiLower a = Text.asciiLower b := by
  simp [sameName, Text.eqIgnoreCase]

/-- A name can stand for another one that is the same, on the left of a comparison. -/
theorem sameName_congr {a b c : String} (h : sameName a b = true) :
    sameName a c = sameName b c := by
  rw [sameName_iff] at h
  simp [sameName, Text.eqIgnoreCase, h]

namespace Headers

variable (h : Headers) (name other value : String)

/-- There is a field with a name exactly if the name has values. -/
theorem contains_iff : h.contains name = true ↔ h.getAll name ≠ [] := by
  simp [contains, getAll]

/-- A field added at the end comes last among those with its name. -/
theorem getAll_append :
    (h.append name value).getAll other =
      h.getAll other ++ if sameName name other then [value] else [] := by
  by_cases hsame : sameName name other = true <;>
    simp [getAll, append, isNamed, hsame]

/-- A removed name has no values, and the other names keep theirs. -/
theorem getAll_remove :
    (h.remove name).getAll other = if sameName name other then [] else h.getAll other := by
  by_cases hsame : sameName name other = true
  · rw [if_pos hsame]
    simp only [getAll, remove, List.filter_filter, List.map_eq_nil_iff, List.filter_eq_nil_iff,
      isNamed, Bool.and_eq_true, Bool.not_eq_true', not_and, Bool.not_eq_false]
    intro field _ hfield
    -- sameness is agreement in lower case, which is transitive
    rw [sameName_iff] at hsame hfield ⊢
    exact hfield.trans hsame.symm
  · rw [if_neg hsame]
    simp only [getAll, remove, List.filter_filter]
    congr 1
    apply List.filter_congr
    intro field _
    -- a field with the looked-up name cannot have the removed one
    by_cases hfield : sameName field.name other = true
    · have hne : sameName field.name name = false := by
        rw [Bool.eq_false_iff]
        intro hname
        exact hsame ((sameName_congr hname).symm.trans hfield)
      simp [isNamed, hfield, hne]
    · simp [isNamed, hfield]

/-- A name that is set has the one value, and the other names keep theirs. -/
theorem getAll_set :
    (h.set name value).getAll other =
      if sameName name other then [value] else h.getAll other := by
  rw [set, getAll_append, getAll_remove]
  split <;> simp

/-- A hop-by-hop strip removes the names that concern one connection and those that the
Connection fields list, and keeps the others. -/
theorem getAll_stripHopByHop :
    h.stripHopByHop.getAll name =
      if Text.asciiLower name ∈ hopByHop ∨ Text.asciiLower name ∈ h.connectionNames then []
      else h.getAll name := by
  -- the strip compares names in lower case, and a lookup up to case
  have hlower : ∀ field, isNamed name field = true →
      Text.asciiLower field.name = Text.asciiLower name :=
    fun field hfield => sameName_iff.mp hfield
  split
  next hlisted =>
    simp only [getAll, stripHopByHop, List.filter_filter, List.map_eq_nil_iff,
      List.filter_eq_nil_iff, Bool.and_eq_true, not_and]
    intro field _ hfield hkept
    rw [hlower field hfield] at hkept
    simp_all
  next hkept =>
    simp only [getAll, stripHopByHop, List.filter_filter]
    congr 1
    apply List.filter_congr
    intro field _
    -- only fields with the looked-up name count, and for them the test is that of the name
    by_cases hfield : isNamed name field = true
    · rw [hlower field hfield]
      simp_all
    · simp [hfield]

theorem getAll_coding_stripHopByHop : h.stripHopByHop.getAll "transfer-encoding" = [] := by
  rw [getAll_stripHopByHop, if_pos (Or.inl (by decide))]

/-- Lengths outlive a hop-by-hop strip, unless the Connection fields list them. -/
theorem getAll_length_stripHopByHop :
    h.stripHopByHop.getAll "content-length" =
      if "content-length" ∈ h.connectionNames then [] else h.getAll "content-length" := by
  have hlower : Text.asciiLower "content-length" = "content-length" := by decide
  have hend : "content-length" ∉ hopByHop := by decide
  rw [getAll_stripHopByHop, hlower]
  simp only [hend, false_or]

/-- The framing of a body depends on the transfer codings and lengths alone. -/
theorem framing_congr {h h' : Headers}
    (hcoding : h.getAll "transfer-encoding" = h'.getAll "transfer-encoding")
    (hlength : h.getAll "content-length" = h'.getAll "content-length") :
    h.framing = h'.framing := by
  have hcontains : h.contains "transfer-encoding" = h'.contains "transfer-encoding" := by
    rw [Bool.eq_iff_iff, contains_iff, contains_iff, hcoding]
  simp [framing, transferCodings, hcontains, hcoding, hlength]

/-- Without transfer codings the lengths alone frame the body. -/
theorem framing_of_no_coding {h : Headers} (hcoding : h.getAll "transfer-encoding" = []) :
    h.framing = (fun length : Option Nat =>
      length.map fun n => if n = 0 then BodyKind.empty else .contentLength n) <$>
        (h.getAll "content-length").foldlM agreeLength none := by
  have hcontains : h.contains "transfer-encoding" = false := by
    rw [Bool.eq_false_iff, ne_eq, contains_iff, hcoding]
    simp
  -- the framing tests for a coding first, and reads the lengths only then
  rw [framing, if_neg (by simp [hcontains])]
  rfl

end Headers

end HttpRelay.Http
