import HttpRelay.Chunked.Basic
import HttpRelay.Proofs.Text.Elements
import HttpRelay.Proofs.Text.Hexadecimal
import HttpRelay.Proofs.Text.Utf8

/-!
# Size lines

The size line of a chunk gives back the size of its data, of any width up to a machine word.

* `parseSize_sizeText`: the size that is written is read;
* `lf_not_mem_sizeText`: a size line has no line end of its own;
* `chomp_append_crlf`: a line loses its terminator only.
-/

namespace HttpRelay

/-- A line loses its terminator only. -/
theorem Bytes.chomp_append_crlf (line : Bytes) : chomp (line ++ crlf) = line := by
  have hlast : (line ++ crlf).getLast? = some lf := by simp [crlf]
  have hbody : (line ++ crlf).dropLast = line ++ [cr] := by
    rw [crlf, List.dropLast_append_cons]
    rfl
  rw [chomp, if_pos hlast, hbody]
  simp

namespace Chunked

/-- The text of a size on the wire. -/
def sizeText (size : Nat) : Bytes := Bytes.ofText (Text.hexUpper size)

/-- A chunk is its size line, its data and an empty line. -/
theorem chunk_eq (data : Bytes) :
    chunk data = sizeText data.length ++ Bytes.crlf ++ data ++ Bytes.crlf := rfl

theorem terminator_eq : terminator = sizeText 0 ++ Bytes.crlf ++ Bytes.crlf := by
  decide

/-- The text of a size is a digit to a byte. -/
theorem sizeText_eq (size : Nat) :
    sizeText size = (Text.hexUpper size).toList.map fun c => UInt8.ofNat c.toNat := by
  have hascii : ∀ c ∈ (Text.hexUpper size).toList, c.toNat < 128 := by
    intro c hc
    have hbounds := Text.bounds_of_isHexDigit (Text.isHexDigit_of_mem_hexUpper hc)
    omega
  rw [sizeText, ← Text.Utf8.ofText_ascii hascii, String.ofList_toList]

/-- A size of some half octets takes no more bytes than that. -/
theorem length_sizeText_le {size k : Nat} (hk : 0 < k) (h : size < 1 <<< (4 * k)) :
    (sizeText size).length ≤ k := by
  rw [sizeText_eq, List.length_map]
  exact Text.length_hexUpper_le hk h

/-- The size of a chunk fits its line: a word has 16 digits at most. -/
theorem length_sizeText_le_maxLineLength {size : Nat} (h : size < UInt64.size) :
    (sizeText size).length ≤ maxLineLength := by
  have hdigits := length_sizeText_le (k := 16) (by decide) (by simpa using h)
  rw [maxLineLength]
  omega

theorem lf_not_mem_sizeText (size : Nat) : Bytes.lf ∉ sizeText size := by
  rw [sizeText_eq]
  intro hmem
  obtain ⟨c, hc, hlf⟩ := List.mem_map.mp hmem
  have hbounds := Text.bounds_of_isHexDigit (Text.isHexDigit_of_mem_hexUpper hc)
  have hvalue : (UInt8.ofNat c.toNat).toNat = c.toNat := by
    refine UInt8.toNat_ofNat_of_lt' ?_
    rw [UInt8.size]
    omega
  rw [hlf] at hvalue
  -- A line feed is below every digit.
  have hten : Bytes.lf.toNat = 10 := rfl
  omega

/-- The size that is written is read. -/
theorem parseSize_sizeText {size : Nat} (h : size < UInt64.size) :
    parseSize (sizeText size) = .ok size := by
  have hdigit := fun c (hc : c ∈ (Text.hexUpper size).toList) =>
    Text.bounds_of_isHexDigit (Text.isHexDigit_of_mem_hexUpper hc)
  -- A digit is neither the start of an extension nor blank, so the whole line is the size.
  have hwhole : (Text.hexUpper size).toList.takeWhile (· != ';') = (Text.hexUpper size).toList := by
    refine List.takeWhile_eq_self_iff.mpr fun c hc => ?_
    have hbounds := hdigit c hc
    simp only [bne_iff_ne]
    rintro rfl
    exact hbounds.2.2 rfl
  have htrim : Text.trimList Text.isSpaceOrTab (Text.hexUpper size).toList =
      (Text.hexUpper size).toList := by
    refine Text.trimList_eq_self fun c hc => ?_
    have hbounds := hdigit c hc
    simp only [Text.isSpaceOrTab, Bool.or_eq_false_iff, beq_eq_false_iff_ne]
    constructor <;> rintro rfl <;> simp at hbounds
  have hlength : (Text.hexUpper size).toList.length ≤ maxSizeDigits :=
    Text.length_hexUpper_le (by decide) (by simpa [maxSizeDigits] using h)
  rw [parseSize, sizeText, Text.Utf8.decode?_ofText]
  simp only [hwhole, htrim, if_pos hlength, Text.hexadecimal?_hexUpper]

end Chunked

end HttpRelay
