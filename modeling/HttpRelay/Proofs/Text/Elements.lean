import HttpRelay.Text.Token
import Mathlib.Data.List.DropRight
import Mathlib.Data.List.TakeWhile

/-!
# Elements of comma-separated lists

A text is cut at its separators. Of a list, which is cut at its commas, every element loses the
blanks around it.

* `splitAtChar_eq_iff`: the parts of a text between separators;
* `trimList_padded`, `exists_padding`: what trimming takes off, and that it takes nothing else;
* `trim_trim`: what is trimmed stays as it is;
* `listElements_append_element`: an element put behind a list is its last one;
* `listElements_ne_nil`: even the empty text has an element, the empty one.
-/

namespace HttpRelay.Text

/-- No character between the space and the controls behind ASCII is blank. -/
theorem isBlank_eq_false_of_visible {c : Char} (h : 32 < c.toNat ∧ c.toNat < 128) :
    isBlank c = false := by
  simp only [isBlank, Bool.or_eq_false_iff, Bool.and_eq_false_iff, beq_eq_false_iff_ne,
    decide_eq_false_iff_not]
  omega

/-- No part of a text holds the separator at which it is cut. -/
theorem not_mem_of_mem_splitOn {sep : Char} {cs part : List Char} (h : part ∈ cs.splitOn sep) :
    sep ∉ part := by
  induction cs generalizing part with
  | nil =>
    rw [List.splitOn_nil, List.mem_singleton] at h
    rw [h]
    exact List.not_mem_nil
  | cons c cs ih =>
    rw [List.splitOn_cons_eq_if_modifyHead] at h
    split at h
    next =>
      rcases List.mem_cons.mp h with rfl | h
      · exact List.not_mem_nil
      · exact ih h
    next hc =>
      -- the character joins the first of the parts behind it
      obtain ⟨first, parts, hparts⟩ := List.exists_cons_of_ne_nil (List.splitOn_ne_nil sep cs)
      rw [hparts] at h ih
      rcases List.mem_cons.mp h with rfl | h
      · rw [List.mem_cons, not_or]
        exact ⟨fun hsame => hc (beq_iff_eq.mpr hsame.symm), ih List.mem_cons_self⟩
      · exact ih (List.mem_cons_of_mem first h)

/-- A text is cut into parts exactly if it is these parts with the separator between them, and
none of them holds the separator. -/
theorem splitAtChar_eq_iff {sep : Char} {s : String} {parts : List String} :
    splitAtChar sep s = parts ↔ parts ≠ [] ∧ (∀ part ∈ parts, sep ∉ part.toList) ∧
      s.toList = [sep].intercalate (parts.map String.toList) := by
  have hparts (cs : List (List Char)) : (cs.map String.ofList).map String.toList = cs := by
    simp [Function.comp_def]
  constructor
  · rintro rfl
    rw [splitAtChar]
    refine ⟨by simp, fun part hpart => ?_, ?_⟩
    · obtain ⟨cs, hcs, rfl⟩ := List.mem_map.mp hpart
      rw [String.toList_ofList]
      exact not_mem_of_mem_splitOn hcs
    · rw [hparts, List.intercalate_splitOn]
  · rintro ⟨hne, hsep, hs⟩
    have hnone : ∀ cs ∈ parts.map String.toList, sep ∉ cs := by
      intro cs hcs
      obtain ⟨part, hpart, rfl⟩ := List.mem_map.mp hcs
      exact hsep part hpart
    rw [splitAtChar, hs, List.splitOn_intercalate sep hnone (by simpa using hne)]
    simp [Function.comp_def]

section Trimming

variable {p : Char → Bool} {before core after cs : List Char}

theorem trimList_eq_rdropWhile (p : Char → Bool) (cs : List Char) :
    trimList p cs = (cs.dropWhile p).rdropWhile p := rfl

/-- A list without characters of a class is not trimmed of them. -/
theorem trimList_eq_self (h : ∀ c ∈ cs, p c = false) : trimList p cs = cs := by
  rw [trimList_eq_rdropWhile, List.dropWhile_eq_self_iff.mpr, List.rdropWhile_eq_self_iff.mpr]
  · exact fun hne => Bool.eq_false_iff.mp (h _ (List.getLast_mem hne))
  · exact fun hpos => Bool.eq_false_iff.mp (h _ (List.getElem_mem hpos))

/-- Trimming takes off characters of a class at both ends, up to a core without any. -/
theorem trimList_padded (hbefore : ∀ c ∈ before, p c = true) (hcore : ∀ c ∈ core, p c = false)
    (hafter : ∀ c ∈ after, p c = true) : trimList p (before ++ core ++ after) = core := by
  have hend : (core ++ after).rdropWhile p = core := by
    induction after using List.reverseRecOn with
    | nil =>
      rw [List.append_nil, List.rdropWhile_eq_self_iff]
      exact fun hne => Bool.eq_false_iff.mp (hcore _ (List.getLast_mem hne))
    | append_singleton after c ih =>
      rw [← List.append_assoc, List.rdropWhile_concat_pos _ _ _ (hafter c (by simp))]
      exact ih fun c' hc' => hafter c' (List.mem_append_left _ hc')
  rw [trimList_eq_rdropWhile, List.append_assoc, List.dropWhile_append_of_pos hbefore]
  cases core with
  | nil =>
    -- nothing is left once the blanks on the one side are gone
    rw [List.nil_append, List.dropWhile_eq_nil_iff.mpr hafter]
    rfl
  | cons c core =>
    rw [List.cons_append, List.dropWhile_cons_of_neg (by simp [hcore c List.mem_cons_self])]
    exact hend

/-- What trimming takes off belongs to the class. -/
theorem exists_padding (p : Char → Bool) (cs : List Char) :
    ∃ before after, cs = before ++ trimList p cs ++ after ∧ (∀ c ∈ before, p c = true) ∧
      ∀ c ∈ after, p c = true := by
  refine ⟨cs.takeWhile p, (cs.dropWhile p).rtakeWhile p, ?_, fun c => List.mem_takeWhile_imp,
    fun c => List.mem_rtakeWhile_imp⟩
  rw [trimList_eq_rdropWhile, List.append_assoc, List.rdropWhile_append_rtakeWhile,
    List.takeWhile_append_dropWhile]

/-- Trimming takes off characters of its class only. -/
theorem mem_trimList {c : Char} (hc : c ∈ cs) (hp : p c = false) : c ∈ trimList p cs := by
  obtain ⟨before, after, hcs, hbefore, hafter⟩ := exists_padding p cs
  rw [hcs] at hc
  rcases List.mem_append.mp hc with hc | hc
  · rcases List.mem_append.mp hc with hc | hc
    · rw [hbefore c hc] at hp
      cases hp
    · exact hc
  · rw [hafter c hc] at hp
    cases hp

/-- A trimmed list is not trimmed any more. -/
theorem trimList_trimList (p : Char → Bool) (cs : List Char) :
    trimList p (trimList p cs) = trimList p cs := by
  have hfront : (trimList p cs).dropWhile p = trimList p cs := by
    rw [List.dropWhile_eq_self_iff]
    intro hpos
    -- the first character that is left is the first one that was not dropped
    have hprefix : trimList p cs <+: cs.dropWhile p := List.rdropWhile_prefix p _
    have hdrop : 0 < (cs.dropWhile p).length := hpos.trans_le hprefix.length_le
    have hfirst : (trimList p cs)[0] = (cs.dropWhile p)[0] := hprefix.getElem hpos
    rw [hfirst]
    exact List.dropWhile_get_zero_not p cs hdrop
  rw [trimList_eq_rdropWhile, hfront, trimList_eq_rdropWhile]
  exact List.rdropWhile_idempotent p _

theorem trim_trim (s : String) : trim (trim s) = trim s := by
  rw [trim, trim, trimOf, trimOf, String.toList_ofList, trimList_trimList]

end Trimming

/-- A text without commas is one element, less the blanks around it. -/
theorem listElements_of_no_comma {s : String} (hcomma : ',' ∉ s.toList) :
    listElements s = [trim s] := by
  rw [listElements, splitAtChar, List.splitOn_eq_singleton hcomma, List.map_singleton,
    List.map_singleton, String.ofList_toList]

/-- Commas at which a list is cut belong to no element. -/
theorem listElements_append_comma (s t : String) :
    listElements (s ++ "," ++ t) = listElements s ++ listElements t := by
  have hlist : (s ++ "," ++ t).toList = s.toList ++ ',' :: t.toList := by simp
  rw [listElements, splitAtChar, hlist, List.splitOn_append_cons_self, List.map_append,
    List.map_append]
  rfl

section Element

variable {element : String} (hcomma : ',' ∉ element.toList)
  (hblank : ∀ c ∈ element.toList, isBlank c = false)

include hblank

theorem trim_element : trim element = element := by
  rw [trim, trimOf, trimList_eq_self hblank, String.ofList_toList]

theorem trim_space_element : trim (" " ++ element) = element := by
  have hcore : trimList isBlank ([' '] ++ element.toList ++ []) = element.toList :=
    trimList_padded (List.forall_mem_singleton.mpr rfl) hblank (by simp)
  have hlist : (" " ++ element).toList = [' '] ++ element.toList ++ [] := by simp
  rw [trim, trimOf, hlist, hcore, String.ofList_toList]

include hcomma

theorem listElements_element : listElements element = [element] := by
  rw [listElements_of_no_comma hcomma, trim_element hblank]

/-- An element put behind a list is its last one. -/
theorem listElements_append_element (s : String) :
    listElements (s ++ ", " ++ element) = listElements s ++ [element] := by
  have hsplit : s ++ ", " ++ element = s ++ "," ++ (" " ++ element) :=
    String.toList_inj.mp (by simp)
  have hspace : ',' ∉ (" " ++ element).toList := by simpa using hcomma
  rw [hsplit, listElements_append_comma, listElements_of_no_comma hspace,
    trim_space_element hblank]

end Element

/-- Even the empty text has an element. -/
theorem listElements_ne_nil (s : String) : listElements s ≠ [] := by
  simp only [listElements, splitAtChar, ne_eq, List.map_eq_nil_iff]
  exact List.splitOn_ne_nil _ _

end HttpRelay.Text
