import HttpRelay.Proofs.Chunked.SizeLine

/-!
# The grammar of a chunked body

Which byte strings are a chunked body, and the payload that they carry, said without readers and
without any limit on lengths or numbers. The well-formedness of each part is kept inside it, so that
there is no body that is not one.

A carriage return right before a line feed can be taken for a part of the terminator or of the text.
The grammar leaves this open: `Line.content` is the text as it is read.

* `Line`, `Chunk`, `Body`: what a body consists of, with the bytes of each;
* `Spells`: the text of a size line that gives a size;
* `spells_append_semicolon`: what is behind a semicolon has no part in the size;
* `Extension`, `Body.extend`: the same body with extensions put on its size lines.
-/

namespace HttpRelay.Chunked

/-! ### Lines -/

/-- What ends a line. -/
inductive Terminator where
  | crlf
  | lf
  deriving DecidableEq, Repr

/-- A terminator on the wire. -/
def Terminator.bytes : Terminator → Bytes
  | crlf => Bytes.crlf
  | lf => [Bytes.lf]

/-- A line. -/
structure Line where
  text : Bytes
  terminator : Terminator
  lf_not_mem : Bytes.lf ∉ text

namespace Line

variable (line : Line)

/-- A line on the wire. -/
def bytes : Bytes := line.text ++ line.terminator.bytes

/-- The text of a line as it is read: a carriage return before the line feed is none of it, whoever
put it there. -/
def content : Bytes := Bytes.chomp line.bytes

/-- The only line feed of a line is its last byte. -/
theorem exists_front : ∃ front, line.bytes = front ++ [Bytes.lf] ∧ Bytes.lf ∉ front := by
  cases hterminator : line.terminator with
  | lf => exact ⟨line.text, by rw [bytes, hterminator, Terminator.bytes], line.lf_not_mem⟩
  | crlf =>
    refine ⟨line.text ++ [Bytes.cr], ?_, ?_⟩
    · rw [bytes, hterminator, Terminator.bytes, Bytes.crlf, List.append_assoc]
      rfl
    · -- the carriage return of the terminator is no line feed
      simpa [Bytes.lf, Bytes.cr] using line.lf_not_mem

variable {line}

theorem content_of_crlf (h : line.terminator = .crlf) : line.content = line.text := by
  rw [content, bytes, h, Terminator.bytes, Bytes.chomp_append_crlf]

/-- Before a bare line feed, a carriage return is not read as a part of the text. -/
theorem content_of_lf (h : line.terminator = .lf) :
    line.content =
      if line.text.getLast? = some Bytes.cr then line.text.dropLast else line.text := by
  have hlast : (line.text ++ [Bytes.lf]).getLast? = some Bytes.lf := List.getLast?_concat
  rw [content, bytes, h, Terminator.bytes, Bytes.chomp, if_pos hlast, List.dropLast_concat]

variable (line)

/-- What is read of a line is its text, less a carriage return at most. -/
theorem text_cases : line.text = line.content ∨ line.text = line.content ++ [Bytes.cr] := by
  cases hterminator : line.terminator with
  | crlf => exact .inl (content_of_crlf hterminator).symm
  | lf =>
    rw [content_of_lf hterminator]
    split
    next hcr => exact .inr (List.dropLast_append_getLast? _ hcr).symm
    next => exact .inl rfl

/-- What is read of a line is a part of its text. -/
theorem mem_text_of_mem_content {b : UInt8} (h : b ∈ line.content) : b ∈ line.text := by
  rcases line.text_cases with hsame | hlonger
  · rwa [hsame]
  · rw [hlonger]
    exact List.mem_append_left _ h

/-- A line is what is read of it, behind which there is a terminator of one kind or the other. -/
theorem bytes_cases : line.bytes = line.content ++ Bytes.crlf ∨
    line.bytes = line.content ++ [Bytes.lf] := by
  cases hterminator : line.terminator with
  | crlf =>
    left
    rw [content_of_crlf hterminator, bytes, hterminator, Terminator.bytes]
  | lf =>
    rw [bytes, hterminator, Terminator.bytes]
    rcases line.text_cases with hsame | hlonger
    · exact .inr (congrArg (· ++ _) hsame)
    · left
      rw [hlonger, List.append_assoc]
      rfl

/-- A line with an empty text is read as one. -/
theorem content_of_text_nil (h : line.text = []) : line.content = [] := by
  rcases line.text_cases with hsame | hlonger
  · rw [← hsame, h]
  · rw [h] at hlonger
    exact absurd hlonger.symm (by simp)

end Line

/-- An empty line. -/
def Terminator.line (terminator : Terminator) : Line := ⟨[], terminator, by simp⟩

@[simp] theorem Terminator.bytes_line (terminator : Terminator) :
    terminator.line.bytes = terminator.bytes := rfl

@[simp] theorem Terminator.content_line (terminator : Terminator) :
    terminator.line.content = [] :=
  terminator.line.content_of_text_nil rfl

/-! ### Sizes -/

/-- The byte in front of an extension. -/
def semicolon : UInt8 := 59

/-- The part of a size line in front of any extension. -/
def sizePart (text : Bytes) : Bytes := text.takeWhile (· != semicolon)

/-- The part of a size line in front of any extension, trimmed of spaces and tabs, with a character
for each byte. -/
def sizeDigits (text : Bytes) : List Char :=
  Text.trimList Text.isSpaceOrTab ((sizePart text).map fun b => Char.ofNat b.toNat)

/-- A text that gives a size, in up to 16 hexadecimal digits. -/
def Spells (size : Nat) (text : Bytes) : Prop :=
  (sizeDigits text).length ≤ maxSizeDigits ∧ Text.hexadecimal? (sizeDigits text) = some size

instance (size : Nat) (text : Bytes) : Decidable (Spells size text) :=
  inferInstanceAs (Decidable (_ ∧ _))

section Spelling

variable {size : Nat} {text : Bytes}

theorem sizePart_append_semicolon (text extension : Bytes) :
    sizePart (text ++ semicolon :: extension) = sizePart text := by
  rw [sizePart, List.takeWhile_append]
  split
  next hall =>
    -- the part in front is all of the text, and the semicolon ends it
    have hwhole : text.takeWhile (· != semicolon) = text :=
      (List.takeWhile_prefix _).eq_of_length hall
    rw [List.takeWhile_cons_of_neg (by simp), List.append_nil, sizePart, hwhole]
  next => rfl

/-- What is behind a semicolon has no part in the size. -/
theorem spells_append_semicolon (extension : Bytes) :
    Spells size (text ++ semicolon :: extension) ↔ Spells size text := by
  rw [Spells, Spells, sizeDigits, sizeDigits, sizePart_append_semicolon]

/-- Digits and the spaces and tabs around them are below 128, and none of them is a carriage
return. -/
theorem bounds_of_hexadecimal? {cs : List Char}
    (h : Text.hexadecimal? (Text.trimList Text.isSpaceOrTab cs) = some size) {c : Char}
    (hc : c ∈ cs) : c.toNat < 128 ∧ c ≠ '\r' := by
  rw [Text.hexadecimal?, Option.ite_none_right_eq_some] at h
  have hdigits := List.all_eq_true.mp h.1.2
  by_cases hblank : Text.isSpaceOrTab c = true
  · rw [Text.isSpaceOrTab, Bool.or_eq_true, beq_iff_eq, beq_iff_eq] at hblank
    rcases hblank with rfl | rfl <;> decide
  · have hmem := Text.mem_trimList hc (Bool.eq_false_iff.mpr hblank)
    have hdigit := Text.bounds_of_isHexDigit (hdigits c hmem)
    refine ⟨by omega, ?_⟩
    rintro rfl
    exact absurd hdigit.1 (by decide)

/-- The number of the character of a byte. -/
theorem toNat_charOf (b : UInt8) : (Char.ofNat b.toNat).toNat = b.toNat := by
  have hlt := b.toNat_lt
  have hvalid : b.toNat.isValidChar := .inl (by omega)
  have hchar : Char.ofNat b.toNat = Char.ofNatAux b.toNat hvalid := dif_pos hvalid
  rw [hchar]
  rfl

/-- The part that gives a size consists of bytes below 128, and none of them is a carriage
return. -/
theorem Spells.bounds (h : Spells size text) {b : UInt8} (hb : b ∈ sizePart text) :
    b < 0x80 ∧ b ≠ Bytes.cr := by
  have hchar := bounds_of_hexadecimal? h.2 (List.mem_map_of_mem hb)
  refine ⟨?_, ?_⟩
  · rw [UInt8.lt_iff_toNat_lt, ← toNat_charOf]
    exact hchar.1
  · rintro rfl
    exact hchar.2 rfl

/-- A size does not depend on whether a carriage return at the end of its line is counted. -/
theorem Spells.of_append_cr (h : Spells size (text ++ [Bytes.cr])) : Spells size text := by
  have hpart : sizePart (text ++ [Bytes.cr]) = sizePart text := by
    rw [sizePart, List.takeWhile_append]
    split
    next hall =>
      -- otherwise the carriage return would be among the digits
      have hmem : Bytes.cr ∈ sizePart (text ++ [Bytes.cr]) := by
        rw [sizePart, List.takeWhile_append, if_pos hall]
        simp [Bytes.cr, semicolon]
      exact absurd rfl (h.bounds hmem).2
    next => rfl
  rw [Spells, sizeDigits, hpart] at h
  exact h

/-- A line gives the size that its text gives. -/
theorem Spells.content {line : Line} (h : Spells size line.text) : Spells size line.content := by
  rcases line.text_cases with hsame | hlonger
  · rwa [← hsame]
  · rw [hlonger] at h
    exact h.of_append_cr

end Spelling

/-! ### Chunks and bodies -/

/-- A chunk that is not the last one. -/
structure Chunk where
  size : Line
  data : Bytes
  ending : Terminator
  spells : Spells data.length size.text
  nonempty : data ≠ []

/-- A chunk on the wire. -/
def Chunk.bytes (chunk : Chunk) : Bytes :=
  chunk.size.bytes ++ (chunk.data ++ chunk.ending.bytes)

/-- A chunked body. -/
structure Body where
  chunks : List Chunk
  /-- The size line of the closing chunk. -/
  last : Line
  trailers : List Line
  ending : Terminator
  spells : Spells 0 last.text
  nonempty : ∀ trailer ∈ trailers, trailer.text ≠ []

namespace Body

/-- The trailers of a body, and the empty line behind them. -/
def trailerBytes (body : Body) : Bytes := body.trailers.flatMap Line.bytes ++ body.ending.bytes

/-- A body on the wire. -/
def bytes (body : Body) : Bytes :=
  body.chunks.flatMap Chunk.bytes ++ (body.last.bytes ++ body.trailerBytes)

/-- The data of the chunks. -/
def payload (body : Body) : Bytes := body.chunks.flatMap Chunk.data

/-- The size lines of a body. -/
def sizeLines (body : Body) : List Line := body.chunks.map Chunk.size ++ [body.last]

end Body

/-! ### Extensions -/

/-- What stands behind the semicolon of a size line. -/
structure Extension where
  bytes : Bytes
  lf_not_mem : Bytes.lf ∉ bytes

/-- A size line with an extension put on it, or none. -/
def Line.extend (line : Line) : Option Extension → Line
  | none => line
  | some extension =>
    { line with
      text := line.text ++ semicolon :: extension.bytes
      lf_not_mem := by
        have hsemicolon : Bytes.lf ≠ semicolon := by decide
        simpa [hsemicolon] using And.intro line.lf_not_mem extension.lf_not_mem }

theorem Line.spells_extend {size : Nat} {line : Line} (h : Spells size line.text)
    (extension : Option Extension) : Spells size (line.extend extension).text := by
  cases extension with
  | none => exact h
  | some extension => exact (spells_append_semicolon extension.bytes).mpr h

/-- A chunk with an extension put on its size line, or none. -/
def Chunk.extend (chunk : Chunk) (extension : Option Extension) : Chunk :=
  { chunk with
    size := chunk.size.extend extension
    spells := Line.spells_extend chunk.spells extension }

/-- Chunks with extensions put on their size lines, as far as there are any. -/
def extendChunks : List Chunk → List (Option Extension) → List Chunk
  | [], _ => []
  | chunks, [] => chunks
  | chunk :: chunks, extension :: extensions =>
    chunk.extend extension :: extendChunks chunks extensions

/-- A body with extensions put on its size lines, the one of the closing chunk included. -/
def Body.extend (body : Body) (extensions : List (Option Extension))
    (closing : Option Extension) : Body :=
  { body with
    chunks := extendChunks body.chunks extensions
    last := body.last.extend closing
    spells := Line.spells_extend body.spells closing }

end HttpRelay.Chunked
