import HttpRelay.Proofs.Text.Hexadecimal
import HttpRelay.Proofs.Text.Utf8
import HttpRelay.Text.Percent

/-!
# Percent encoding that is read back

Any text can be written as one segment of a path: each of its octets as a percent sign with two
hexadecimal digits behind it.

* `Percent.encode`: a text so written;
* `Percent.decode?_encode`: it is read back;
* `Percent.encode_ne_empty`, `Percent.ne_of_mem_encode`: it is a segment of a path.
-/

namespace HttpRelay.Text.Percent

/-- An octet with a percent sign in front. -/
def encodeByte (b : UInt8) : List Char :=
  ['%', Nat.digitChar (b.toNat / 16), Nat.digitChar (b.toNat % 16)]

/-- A text, octet by octet. -/
def encode (s : String) : String := String.ofList ((Bytes.ofText s).flatMap encodeByte)

theorem byte?_digits (b : UInt8) :
    byte? (Nat.digitChar (b.toNat / 16)) (Nat.digitChar (b.toNat % 16)) = some b := by
  have hb := b.toNat_lt
  have hvalue : b.toNat / 16 * 16 + b.toNat % 16 = b.toNat := by omega
  rw [byte?, hexValue?_digitChar _ (by omega), hexValue?_digitChar _ (Nat.mod_lt _ (by decide))]
  change some (UInt8.ofNat (b.toNat / 16 * 16 + b.toNat % 16)) = some b
  rw [hvalue, UInt8.ofNat_toNat]

/-- The octets that were written are read, in their order. -/
theorem bytesFrom_encode (reversed bytes : Bytes) :
    bytesFrom reversed (bytes.flatMap encodeByte) = reversed.reverse ++ bytes := by
  induction bytes generalizing reversed with
  | nil => simp [bytesFrom]
  | cons b bytes ih =>
    rw [List.flatMap_cons, encodeByte, List.cons_append, List.cons_append, List.cons_append,
      List.nil_append, bytesFrom, byte?_digits]
    simp only [ih, List.reverse_cons, List.append_assoc, List.singleton_append]

/-- Decoding undoes encoding. -/
theorem decode?_encode (s : String) : decode? (encode s) = some s := by
  rw [decode?, encode, String.toList_ofList, bytesFrom_encode, List.reverse_nil, List.nil_append,
    Utf8.decode?_ofText]

/-- A percent sign and hexadecimal digits, and nothing else, are written. -/
theorem mem_encode {s : String} {c : Char} (hc : c ∈ (encode s).toList) :
    c = '%' ∨ isHexDigit c = true := by
  rw [encode, String.toList_ofList] at hc
  obtain ⟨b, -, hc⟩ := List.mem_flatMap.mp hc
  have hb := b.toNat_lt
  simp only [encodeByte, List.mem_cons, List.not_mem_nil, or_false] at hc
  rcases hc with rfl | rfl | rfl
  · exact .inl rfl
  · exact .inr (isHexDigit_digitChar _ (by omega))
  · exact .inr (isHexDigit_digitChar _ (Nat.mod_lt _ (by decide)))

/-- What is written keeps apart from what divides a path, and from what ends it. -/
theorem ne_of_mem_encode {s : String} {c d : Char} (hc : c ∈ (encode s).toList)
    (hpercent : d ≠ '%') (hdigit : isHexDigit d = false) : c ≠ d := by
  rintro rfl
  rcases mem_encode hc with rfl | hhex
  · exact hpercent rfl
  · exact Bool.eq_false_iff.mp hdigit hhex

theorem encode_ne_empty {s : String} (h : s ≠ "") : encode s ≠ "" := by
  intro hnone
  have hempty : decode? "" = some "" := decode?_encode ""
  have hdecoded := decode?_encode s
  rw [hnone, hempty] at hdecoded
  exact h (Option.some.inj hdecoded).symm

end HttpRelay.Text.Percent
