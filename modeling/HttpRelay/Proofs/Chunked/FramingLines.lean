import HttpRelay.Proofs.Chunked.Decoding
import HttpRelay.Proofs.Chunked.Grammar
import HttpRelay.Proofs.Text.Utf8Decoding

/-!
# Reading the lines of the grammar

Which lines a decoder takes off the front of its input. It takes a line that is short enough, with
its terminator, and a size line only if it is UTF-8 as well, extensions included.

* `Line.Fits`, `Line.Legible`: a line that is short enough, and one that is UTF-8;
* `takeLine_of_fits`, `takeLine_of_not_fits`: a line is taken, or is too long;
* `exists_line_of_takeLine`: what is taken is a line;
* `parseSize_eq_ok_iff`: the size lines from which a size is read;
* `takeSize_of_taken`, `takeSize_of_not_taken`: a size line of the grammar is taken, or refused;
* `writtenLine`: the size lines that a writer puts on the wire are taken.
-/

namespace HttpRelay.Chunked

/-! ### Lines -/

namespace Line

variable (line : Line)

/-- A line that is short enough to be read, with its terminator. -/
def Fits : Prop := line.bytes.length ≤ lineReadLimit

/-- A line that is UTF-8. -/
def Legible : Prop := (Text.Utf8.decode? line.content).isSome = true

/-- A size line that nothing but its size is read from. -/
structure Taken : Prop where
  fits : line.Fits
  legible : line.Legible

instance : Decidable line.Fits := inferInstanceAs (Decidable (_ ≤ _))

instance : Decidable line.Legible := inferInstanceAs (Decidable (_ = _))

instance : Decidable line.Taken :=
  decidable_of_iff (line.Fits ∧ line.Legible) ⟨fun h => ⟨h.1, h.2⟩, fun h => ⟨h.1, h.2⟩⟩

/-- A line of the greatest length and one byte more, with nothing but a line feed for a
terminator. -/
def IsOverlong : Prop :=
  line.content.length = maxLineLength + 1 ∧ line.bytes = line.content ++ [Bytes.lf]

/-- The room for a carriage return that is not there goes to the text. -/
theorem fits_iff : line.Fits ↔ line.content.length ≤ maxLineLength ∨ line.IsOverlong := by
  have hlimit : lineReadLimit = maxLineLength + 2 := rfl
  rw [Fits, IsOverlong, hlimit]
  rcases line.bytes_cases with hcrlf | hlf
  · have hlength : line.bytes.length = line.content.length + 2 := by
      rw [hcrlf, List.length_append]
      rfl
    have hother : line.bytes ≠ line.content ++ [Bytes.lf] := by
      intro hsame
      rw [hsame, List.length_append, List.length_singleton] at hlength
      omega
    simp only [hother, and_false, or_false]
    omega
  · have hlength : line.bytes.length = line.content.length + 1 := by
      rw [hlf, List.length_append, List.length_singleton]
    simp only [hlf, and_true]
    rw [← hlf]
    omega

end Line

variable {line : Line}

theorem takeLine_of_fits (h : line.Fits) (rest : Bytes) :
    takeLine (line.bytes ++ rest) = .ok (line.content, rest) := by
  obtain ⟨front, hbytes, hfront⟩ := line.exists_front
  have hlt : front.length < lineReadLimit := by
    rw [Line.Fits, hbytes, List.length_append, List.length_singleton] at h
    omega
  have hwithin : Bytes.lineWithin lineReadLimit (line.bytes ++ rest) = line.bytes := by
    rw [hbytes, List.append_assoc, List.singleton_append, Bytes.lineWithin_of_lt hfront rest hlt]
  have hlast : line.bytes.getLast? = some Bytes.lf := by
    rw [hbytes, List.getLast?_concat]
  rw [takeLine, hwithin]
  simp only [hlast, if_true, List.drop_left]
  rfl

theorem takeLine_of_not_fits (h : ¬ line.Fits) (rest : Bytes) :
    takeLine (line.bytes ++ rest) = .error (.lineTooLong maxLineLength) := by
  obtain ⟨front, hbytes, hfront⟩ := line.exists_front
  have hle : lineReadLimit ≤ front.length := by
    rw [Line.Fits, hbytes, List.length_append, List.length_singleton] at h
    omega
  -- The search for the line feed gives up in front of it.
  have hnone : Bytes.lf ∉ front.take lineReadLimit := fun hmem => hfront (List.mem_of_mem_take hmem)
  have hwithin : Bytes.lineWithin lineReadLimit (line.bytes ++ rest) =
      front.take lineReadLimit := by
    have htake : (line.bytes ++ rest).take lineReadLimit = front.take lineReadLimit ++ [] := by
      rw [hbytes, List.append_assoc, List.take_append_of_le_length hle, List.append_nil]
    rw [Bytes.lineWithin, htake, Bytes.fst_splitLine_append_of_not_mem hnone]
    exact List.append_nil _
  have hlast : (front.take lineReadLimit).getLast? ≠ some Bytes.lf :=
    fun hlast => hnone (List.mem_of_getLast? hlast)
  have hlength : lineReadLimit ≤ (front.take lineReadLimit).length := by
    rw [List.length_take, Nat.min_eq_left hle]
  rw [takeLine, hwithin]
  simp only [if_neg hlast, if_pos hlength]

/-- A text up to its first line feed is a line, whose text is what is read of it. -/
theorem exists_line_of_front {front : Bytes} (h : Bytes.lf ∉ front) :
    ∃ line : Line, line.content = line.text ∧ line.bytes = front ++ [Bytes.lf] := by
  by_cases hcr : front.getLast? = some Bytes.cr
  · -- the carriage return goes to the terminator
    let line : Line := ⟨front.dropLast, .crlf, fun hmem => h (List.dropLast_subset _ hmem)⟩
    have hfront : front.dropLast ++ [Bytes.cr] = front := List.dropLast_append_getLast? _ hcr
    refine ⟨line, Line.content_of_crlf rfl, ?_⟩
    change front.dropLast ++ ([Bytes.cr] ++ [Bytes.lf]) = _
    rw [← List.append_assoc, hfront]
  · refine ⟨⟨front, .lf, h⟩, ?_, rfl⟩
    rw [Line.content_of_lf rfl, if_neg hcr]

/-- What is taken is a line, and what is behind it is left. -/
theorem exists_line_of_takeLine {bytes text rest : Bytes} (h : takeLine bytes = .ok (text, rest)) :
    ∃ line : Line, line.text = text ∧ line.content = text ∧ line.Fits ∧
      bytes = line.bytes ++ rest := by
  rw [takeLine] at h
  split at h
  next hlast =>
    obtain ⟨rfl, rfl⟩ := Prod.mk.inj (Except.ok.inj h)
    obtain ⟨front, hwithin, hfront⟩ := Bytes.exists_front_of_lineWithin hlast
    obtain ⟨line, htext, hbytes⟩ := exists_line_of_front hfront
    rw [← hwithin] at hbytes
    have hcontent : line.content = Bytes.chomp (Bytes.lineWithin lineReadLimit bytes) :=
      congrArg Bytes.chomp hbytes
    refine ⟨line, htext.symm.trans hcontent, hcontent, ?_, ?_⟩
    · rw [Line.Fits, hbytes]
      exact Bytes.length_lineWithin_le lineReadLimit bytes
    · rw [hbytes]
      exact (List.prefix_iff_eq_append.mp (Bytes.lineWithin_prefix lineReadLimit bytes)).symm
  next => split at h <;> cases h

/-! ### Size lines -/

section Sizes

variable {text : Bytes} {s : String} {size : Nat}

/-- What is behind the part with the size is nothing, or a semicolon and an extension. -/
theorem text_eq_sizePart (text : Bytes) :
    text = sizePart text ∨ ∃ extension, text = sizePart text ++ semicolon :: extension := by
  have hsplit : text = sizePart text ++ text.dropWhile (· != semicolon) :=
    List.takeWhile_append_dropWhile.symm
  cases hrest : text.dropWhile (· != semicolon) with
  | nil =>
    rw [hrest, List.append_nil] at hsplit
    exact .inl hsplit
  | cons b extension =>
    have hstop := List.head?_dropWhile_not (· != semicolon) text
    rw [hrest] at hstop hsplit
    obtain rfl : b = semicolon := by simpa using hstop
    exact .inr ⟨extension, hsplit⟩

/-- A part in front of the extensions that is ASCII is read a byte to a character. -/
theorem takeWhile_decoded (h : Text.Utf8.decode? text = some s)
    (hascii : ∀ b ∈ sizePart text, b < 0x80) :
    s.toList.takeWhile (· != ';') = (sizePart text).map fun b => Char.ofNat b.toNat := by
  have hpieces := Text.Utf8.pieces_of_decode? h
  have hother : ∀ c ∈ (sizePart text).map fun b => Char.ofNat b.toNat, (c != ';') = true := by
    intro c hc
    obtain ⟨b, hb, rfl⟩ := List.mem_map.mp hc
    have hbne := @List.mem_takeWhile_imp _ (· != semicolon) _ _ hb
    rw [bne_iff_ne] at hbne ⊢
    intro hsame
    have hnat := congrArg Char.toNat hsame
    rw [toNat_charOf] at hnat
    exact hbne (UInt8.toNat_inj.mp hnat)
  rcases text_eq_sizePart text with htext | ⟨extension, htext⟩
  · rw [htext, Text.Utf8.pieces_ascii hascii] at hpieces
    have hs := (List.map_inj_right fun _ _ => Option.some.inj).mp hpieces
    rw [← hs, List.takeWhile_eq_self_iff]
    exact hother
  · -- the semicolon is a character, and the part in front of it is all that is looked at
    have hpiece : Text.Utf8.pieces (semicolon :: extension) =
        some ';' :: Text.Utf8.pieces extension := by
      rw [Text.Utf8.pieces_cons]
      rfl
    rw [htext, Text.Utf8.pieces_append_ascii hascii, hpiece] at hpieces
    obtain ⟨front, behind, hs, hfront, hbehind⟩ := List.map_eq_append_iff.mp hpieces.symm
    obtain ⟨c, behind, rfl, hc, -⟩ := List.map_eq_cons_iff.mp hbehind
    obtain rfl : c = ';' := Option.some.inj hc
    obtain rfl := (List.map_inj_right fun _ _ => Option.some.inj).mp hfront
    rw [hs, List.takeWhile_append_of_pos hother, List.takeWhile_cons_of_neg (by simp),
      List.append_nil]

/-- Characters in front of the extensions that are ASCII have a byte each. -/
theorem sizePart_ascii (h : Text.Utf8.decode? text = some s)
    (hascii : ∀ c ∈ s.toList.takeWhile (· != ';'), c.toNat < 128) :
    ∀ b ∈ sizePart text, b < 0x80 := by
  generalize hfront : s.toList.takeWhile (· != ';') = front at hascii
  generalize hbehind : s.toList.dropWhile (· != ';') = behind
  have hsplit : s = String.ofList front ++ String.ofList behind := by
    rw [← String.toList_inj, String.toList_append, String.toList_ofList, String.toList_ofList,
      ← hfront, ← hbehind, List.takeWhile_append_dropWhile]
  have htext : text = (front.map fun c => UInt8.ofNat c.toNat) ++
      Bytes.ofText (String.ofList behind) := by
    rw [← Text.Utf8.ofText_of_decode? h, ← Text.Utf8.ofText_ascii hascii,
      ← Text.Utf8.ofText_append, ← hsplit]
  have hpart : sizePart text = sizePart (front.map fun c => UInt8.ofNat c.toNat) := by
    cases behind with
    | nil =>
      have hnone : Bytes.ofText (String.ofList []) = [] := rfl
      rw [htext, hnone, List.append_nil]
    | cons c behind =>
      -- what is behind the first characters begins with a semicolon, in bytes as well
      have hstop := List.head?_dropWhile_not (· != ';') s.toList
      rw [hbehind] at hstop
      obtain rfl : c = ';' := by simpa using hstop
      have hbytes : Bytes.ofText (String.ofList (';' :: behind)) =
          semicolon :: Bytes.ofText (String.ofList behind) := by
        rw [Bytes.ofText, Bytes.ofText, String.toList_ofList, String.toList_ofList]
        rfl
      rw [htext, hbytes, sizePart_append_semicolon]
  intro b hb
  rw [hpart] at hb
  obtain ⟨c, hc, rfl⟩ := List.mem_map.mp ((List.takeWhile_prefix _).subset hb)
  have hlt := hascii c hc
  have hbyte : (UInt8.ofNat c.toNat).toNat = c.toNat := by
    refine UInt8.toNat_ofNat_of_lt' ?_
    rw [UInt8.size]
    omega
  rw [UInt8.lt_iff_toNat_lt, hbyte]
  exact hlt

/-- The size lines from which a size is read. -/
theorem parseSize_eq_ok_iff :
    parseSize text = .ok size ↔ Spells size text ∧ (Text.Utf8.decode? text).isSome = true := by
  constructor
  · intro h
    rw [parseSize] at h
    split at h
    next => cases h
    next s hs =>
      dsimp only at h
      split at h
      next hlength =>
        split at h
        next n hn =>
          obtain rfl := Except.ok.inj h
          have hascii := sizePart_ascii hs fun c hc => (bounds_of_hexadecimal? hn hc).1
          rw [takeWhile_decoded hs hascii] at hlength hn
          exact ⟨⟨hlength, hn⟩, by rw [hs]; rfl⟩
        next => cases h
      next => cases h
  · rintro ⟨hspells, hlegible⟩
    obtain ⟨s, hs⟩ := Option.isSome_iff_exists.mp hlegible
    have hpart := takeWhile_decoded hs fun b hb => (hspells.bounds hb).1
    obtain ⟨hlength, hdigits⟩ := hspells
    rw [sizeDigits, ← hpart] at hlength hdigits
    rw [parseSize, hs]
    dsimp only
    rw [if_pos hlength, hdigits]

/-- A text that gives no size is refused as such. -/
theorem invalidSize_of_parseSize {error : Error} (h : parseSize text = .error error) :
    ∃ shown, error = .invalidSize shown := by
  rw [parseSize] at h
  split at h
  next => exact ⟨_, (Except.error.inj h).symm⟩
  next s hs =>
    dsimp only at h
    split at h
    next =>
      split at h
      next => cases h
      next => exact ⟨_, (Except.error.inj h).symm⟩
    next => exact ⟨_, (Except.error.inj h).symm⟩

end Sizes

section Taking

variable {size : Nat}

/-- Of a line that is short enough, all that counts is whether it gives a size. -/
theorem takeSize_of_fits (h : line.Fits) (rest : Bytes) :
    takeSize (line.bytes ++ rest) = (parseSize line.content).map fun size => (size, rest) := by
  rw [takeSize, takeLine_of_fits h]

theorem takeSize_of_not_fits (h : ¬ line.Fits) (rest : Bytes) :
    ∃ text, takeSize (line.bytes ++ rest) = .error (.invalidSize text) := by
  rw [takeSize, takeLine_of_not_fits h]
  exact ⟨_, rfl⟩

/-- A size line of the grammar is taken if it is short enough and UTF-8. -/
theorem takeSize_of_taken (h : Spells size line.text) (htaken : line.Taken) (rest : Bytes) :
    takeSize (line.bytes ++ rest) = .ok (size, rest) := by
  rw [takeSize_of_fits htaken.fits, parseSize_eq_ok_iff.mpr ⟨h.content, htaken.legible⟩]
  rfl

/-- Any other line is refused as one that gives no size. -/
theorem takeSize_of_not_taken (h : ¬ line.Taken) (rest : Bytes) :
    ∃ text, takeSize (line.bytes ++ rest) = .error (.invalidSize text) := by
  by_cases hfits : line.Fits
  · have hnone : Text.Utf8.decode? line.content = none := by
      simpa [Line.Legible] using fun hlegible => h ⟨hfits, hlegible⟩
    refine ⟨Text.Utf8.decodeLossy line.content, ?_⟩
    rw [takeSize_of_fits hfits, parseSize, hnone]
    rfl
  · exact takeSize_of_not_fits hfits rest

/-- What is taken for a size line is one. -/
theorem exists_line_of_takeSize {bytes rest : Bytes} (h : takeSize bytes = .ok (size, rest)) :
    ∃ line : Line, Spells size line.text ∧ line.Taken ∧ bytes = line.bytes ++ rest := by
  rw [takeSize] at h
  split at h
  next text rest' htext =>
    obtain ⟨line, rfl, hcontent, hfits, hbytes⟩ := exists_line_of_takeLine htext
    cases hparse : parseSize line.text with
    | error error =>
      rw [hparse] at h
      cases h
    | ok size' =>
      rw [hparse] at h
      obtain ⟨rfl, rfl⟩ := Prod.mk.inj (Except.ok.inj h)
      obtain ⟨hspells, hlegible⟩ := parseSize_eq_ok_iff.mp hparse
      refine ⟨line, hspells, ⟨hfits, ?_⟩, hbytes⟩
      rwa [Line.Legible, hcontent]
  next => cases h
  next => cases h

/-- Without extensions, a size line is UTF-8. -/
theorem legible_of_no_extension (h : Spells size line.text) (hnone : semicolon ∉ line.text) :
    line.Legible := by
  have hpart : sizePart line.text = line.text := by
    refine List.takeWhile_eq_self_iff.mpr fun b hb => ?_
    rw [bne_iff_ne]
    rintro rfl
    exact hnone hb
  refine Text.Utf8.isSome_decode?_ascii fun b hb => ?_
  have hmem : b ∈ sizePart line.text := by
    rw [hpart]
    exact line.mem_text_of_mem_content hb
  exact (h.bounds hmem).1

/-- The size line that is written for a size. -/
def writtenLine (size : Nat) : Line := ⟨sizeText size, .crlf, lf_not_mem_sizeText size⟩

theorem writtenLine_spells (h : size < UInt64.size) : Spells size (writtenLine size).text :=
  (parseSize_eq_ok_iff.mp (parseSize_sizeText h)).1

theorem writtenLine_taken (h : size < UInt64.size) : (writtenLine size).Taken := by
  have hcontent : (writtenLine size).content = sizeText size := Line.content_of_crlf rfl
  constructor
  · refine (writtenLine size).fits_iff.mpr (.inl ?_)
    rw [hcontent]
    exact length_sizeText_le_maxLineLength h
  · rw [Line.Legible, hcontent]
    exact (parseSize_eq_ok_iff.mp (parseSize_sizeText h)).2

end Taking

end HttpRelay.Chunked
