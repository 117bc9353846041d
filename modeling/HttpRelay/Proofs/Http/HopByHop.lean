import HttpRelay.Proofs.Http.FieldLookup

/-!
# Fields of one connection

What a hop-by-hop strip removes, said without the code that collects the names: the fields that
concern one connection by their name, and those that a Connection field of the same head lists.

* `Headers.isHopByHop`: whether a name is one of these;
* `Headers.fields_stripHopByHop`: the strip removes exactly their fields, and keeps the others as
  they are;
* `Headers.stripHopByHop_stripHopByHop`: a second strip removes nothing.
-/

namespace HttpRelay.Text

@[simp] theorem asciiLower_empty : asciiLower "" = "" := by decide

/-- Only the empty text is empty in lower case. -/
theorem asciiLower_eq_empty_iff {s : String} : asciiLower s = "" ↔ s = "" := by
  constructor
  · intro h
    have hlist := congrArg String.toList h
    rw [asciiLower, String.toList_ofList, String.toList_empty, List.map_eq_nil_iff] at hlist
    exact String.toList_eq_nil_iff.mp hlist
  · rintro rfl
    exact asciiLower_empty

end HttpRelay.Text

namespace HttpRelay.Http.Headers

variable (h : Headers) {name : String}

/-- Whether a Connection field lists a name. An empty element of the list is no name. -/
def lists (h : Headers) (name : String) : Bool :=
  !name.isEmpty && h.hasToken "connection" name

/-- Whether the fields with a name concern one connection only: by the name itself, or since a
Connection field lists it. -/
def isHopByHop (h : Headers) (name : String) : Bool :=
  hopByHop.any (sameName name) || h.lists name

/-- The names collected off the Connection fields are those that the fields list. -/
theorem mem_connectionNames_iff :
    Text.asciiLower name ∈ h.connectionNames ↔ h.lists name = true := by
  simp only [connectionNames, lists, hasToken, Text.listHasToken, List.mem_filterMap,
    List.mem_flatMap, Bool.and_eq_true, List.any_eq_true, Text.eqIgnoreCase, beq_iff_eq,
    Bool.not_eq_true', String.isEmpty_eq_false_iff]
  constructor
  · rintro ⟨element, ⟨value, hvalue, helement⟩, hsome⟩
    obtain ⟨hne, hlower⟩ := Option.ite_none_left_eq_some.mp hsome
    have hsame := Option.some.inj hlower
    refine ⟨fun hempty => hne ?_, value, hvalue, element, helement, hsame⟩
    rw [hempty, Text.asciiLower_empty, Text.asciiLower_eq_empty_iff] at hsame
    simp [hsame]
  · rintro ⟨hne, value, hvalue, element, helement, hsame⟩
    refine ⟨element, ⟨value, hvalue, helement⟩, ?_⟩
    refine Option.ite_none_left_eq_some.mpr ⟨fun hempty => ?_, by rw [hsame]⟩
    rw [String.isEmpty_iff.mp hempty, Text.asciiLower_empty] at hsame
    exact hne (Text.asciiLower_eq_empty_iff.mp hsame.symm)

/-- The names that concern one connection by themselves are written in lower case. -/
theorem mem_hopByHop_iff :
    Text.asciiLower name ∈ hopByHop ↔ hopByHop.any (sameName name) = true := by
  have hlower : ∀ other ∈ hopByHop, Text.asciiLower other = other := by decide
  simp only [List.any_eq_true, sameName_iff]
  constructor
  · intro hmem
    exact ⟨_, hmem, (hlower _ hmem).symm⟩
  · rintro ⟨other, hother, hsame⟩
    rw [hsame, hlower other hother]
    exact hother

/-- A strip removes the fields that concern one connection, and keeps the others in order. -/
theorem fields_stripHopByHop :
    h.stripHopByHop.fields = h.fields.filter fun field => !h.isHopByHop field.name := by
  refine List.filter_congr fun field _ => ?_
  have hname : hopByHop.contains (Text.asciiLower field.name) =
      hopByHop.any (sameName field.name) :=
    Bool.eq_iff_iff.mpr (List.contains_iff_mem.trans mem_hopByHop_iff)
  have hlisted : h.connectionNames.contains (Text.asciiLower field.name) = h.lists field.name :=
    Bool.eq_iff_iff.mpr (List.contains_iff_mem.trans h.mem_connectionNames_iff)
  rw [isHopByHop, Bool.not_or, ← hname, ← hlisted]

/-- What is left of a head lists nothing, since its Connection fields are gone. -/
theorem connectionNames_stripHopByHop : h.stripHopByHop.connectionNames = [] := by
  have hnone : h.stripHopByHop.getAll "connection" = [] := by
    rw [getAll_stripHopByHop, if_pos (Or.inl (by decide))]
  rw [connectionNames, hnone]
  rfl

/-- A second strip removes nothing. -/
theorem stripHopByHop_stripHopByHop : h.stripHopByHop.stripHopByHop = h.stripHopByHop := by
  have hkept : h.stripHopByHop.stripHopByHop.fields = h.stripHopByHop.fields := by
    refine List.filter_eq_self.mpr fun field hfield => ?_
    -- the first strip has removed whatever concerns one connection by its name
    have hfirst := (List.mem_filter.mp hfield).2
    rw [Bool.and_eq_true] at hfirst
    rw [connectionNames_stripHopByHop]
    simpa using hfirst.1
  exact congrArg Headers.mk hkept

end HttpRelay.Http.Headers
