import HttpRelay.Http.Head
import HttpRelay.Proofs.Http.FieldWriting

/-!
# Response heads that are read back

A status is read from three digits, and written with as many as its number needs. So a response
head that was read is read back from what is written for it if its status is one hundred or more,
and is refused on account of its status if it is less. Nothing else in a head changes: neither a
reason that is missing, surrounded by blanks or outside ASCII, nor any field.

* `ofText_decimal`: the digits of a number;
* `ResponseHead.IsWellFormed`, `ResponseHead.isWellFormed_of_parse`: the heads that are read;
* `ResponseHead.run_scan_render`: such a head is read off the front of what is written;
* `ResponseHead.parse_render_of_lt`: a head whose status is too short is refused;
* `ResponseHead.parse_render_iff_three_digits`: which of the heads that were read are read back.
-/

namespace HttpRelay.Http

open Bytes Text
open Outcome (run_bind_of_ok run_bind_of_error)

section Decimal

/-- The digit of a number below ten. -/
def digitByte (d : Nat) : UInt8 := UInt8.ofNat (0x30 + d)

theorem utf8EncodeChar_digitChar : ∀ d < 10,
    String.utf8EncodeChar (Nat.digitChar d) = [digitByte d] := by decide

/-- The last digit of a number stands behind those of its tenth part. -/
theorem ofText_decimal (n : Nat) :
    ofText (toString n) = (if n < 10 then [] else ofText (toString (n / 10))) ++
      [digitByte (n % 10)] := by
  have hdigits (m : Nat) :
      ofText (toString m) = (Nat.toDigits 10 m).flatMap String.utf8EncodeChar := by
    rw [ofText, Nat.toString_eq_repr, Nat.toList_repr]
  rw [hdigits, hdigits, Nat.toDigits_eq_if (by decide)]
  split
  next hsmall =>
    rw [List.flatMap_singleton, utf8EncodeChar_digitChar n hsmall, Nat.mod_eq_of_lt hsmall,
      List.nil_append]
  next =>
    rw [List.flatMap_append, List.flatMap_singleton,
      utf8EncodeChar_digitChar _ (Nat.mod_lt n (by decide))]

theorem ofText_decimal_of_lt_ten {n : Nat} (h : n < 10) :
    ofText (toString n) = [digitByte n] := by
  rw [ofText_decimal, if_pos h, List.nil_append, Nat.mod_eq_of_lt h]

end Decimal

/-- Bytes that the reason of a response may have when it is read. -/
def IsReason (bytes : Bytes) : Prop := ∀ b ∈ bytes, Scan.isTextByte b = true ∧ b < 0x80

/-- A response head as it is read. -/
structure ResponseHead.IsWellFormed (head : ResponseHead) : Prop where
  status : head.status < 1000
  reason : IsReason (ofText head.reason)
  version : head.version ≤ 1
  headers : head.headers.IsWellFormed

namespace Scan

variable {input rest : Bytes}

section Giving

theorem gives_digit : Gives digit input fun d _ => d < 10 := by
  refine gives_bind fun b rest => ?_
  split
  next hdigit =>
    simp only [Bool.and_eq_true, decide_eq_true_eq, UInt8.le_iff_toNat_le, UInt8.reduceToNat]
      at hdigit
    exact gives_pure (by omega)
  next => exact gives_fail _

theorem gives_status : Gives status input fun n _ => n < 1000 := by
  refine gives_digit.bind fun hundreds _ hhundreds => gives_digit.bind fun tens _ htens => ?_
  exact gives_digit.bind fun ones _ hones => gives_pure (by omega)

/-- A reason outside ASCII is dropped, and what is left of it may be written. -/
theorem gives_reason : Gives reason input fun text _ => IsReason (ofText text) := by
  refine gives_takeWhile.bind fun bytes rest hbytes => gives_bind fun _ rest => ?_
  split
  next hascii =>
    have hlt : ∀ b ∈ bytes, b < 0x80 := fun b hb =>
      of_decide_eq_true (List.all_eq_true.mp hascii b hb)
    refine gives_pure ?_
    rw [ofText_asciiText hlt]
    exact fun b hb => ⟨hbytes.2.1 b hb, hlt b hb⟩
  next => exact gives_pure nofun

theorem gives_statusLineEnd : Gives statusLineEnd input fun text _ => IsReason (ofText text) := by
  refine gives_bind fun _ _ => ?_
  split
  next => exact gives_bind fun _ _ => gives_reason
  next => exact gives_bind fun _ _ => gives_pure nofun

end Giving

section Writing

theorem run_digit {d : Nat} (h : d < 10) : digit.run (digitByte d :: rest) = .ok (d, rest) := by
  have hall : ∀ d < 10, (0x30 ≤ digitByte d && digitByte d ≤ 0x39) = true ∧
      (digitByte d).toNat - 0x30 = d := by decide
  obtain ⟨hdigit, hvalue⟩ := hall d h
  have hnext : next.run (digitByte d :: rest) = .ok (digitByte d, rest) := rfl
  rw [digit, run_bind_of_ok hnext, if_pos hdigit, hvalue]
  rfl

theorem run_digit_space : digit.run (0x20 :: rest) = .error (.failed .status) := rfl

/-- A status of three digits is read back. -/
theorem run_status {n : Nat} (hlow : 100 ≤ n) (hhigh : n < 1000) :
    status.run (ofText (toString n) ++ rest) = .ok (n, rest) := by
  -- a number of this size has three digits, so that no zero is lost
  have hinput : ofText (toString n) ++ rest = digitByte (n / 10 / 10) ::
      digitByte (n / 10 % 10) :: digitByte (n % 10) :: rest := by
    rw [ofText_decimal n, if_neg (by omega), ofText_decimal (n / 10), if_neg (by omega),
      ofText_decimal_of_lt_ten (by omega : n / 10 / 10 < 10)]
    rfl
  have hvalue : (n / 10 / 10 * 10 + n / 10 % 10) * 10 + n % 10 = n := by omega
  rw [hinput, status, run_bind_of_ok (run_digit (by omega)),
    run_bind_of_ok (run_digit (Nat.mod_lt _ (by decide))),
    run_bind_of_ok (run_digit (Nat.mod_lt _ (by decide))), hvalue]
  rfl

/-- A status of fewer digits is refused where the space stands in the place of a digit. -/
theorem run_status_of_lt {n : Nat} (h : n < 100) :
    status.run (ofText (toString n) ++ 0x20 :: rest) = .error (.failed .status) := by
  rw [status]
  by_cases hone : n < 10
  · rw [ofText_decimal_of_lt_ten hone, List.singleton_append, run_bind_of_ok (run_digit hone)]
    exact run_bind_of_error run_digit_space
  · have hinput : ofText (toString n) ++ 0x20 :: rest =
        digitByte (n / 10) :: digitByte (n % 10) :: 0x20 :: rest := by
      rw [ofText_decimal, if_neg hone, ofText_decimal_of_lt_ten (by omega : n / 10 < 10)]
      rfl
    rw [hinput, run_bind_of_ok (run_digit (by omega)),
      run_bind_of_ok (run_digit (Nat.mod_lt _ (by decide)))]
    exact run_bind_of_error run_digit_space

/-- A reason is read back, with the blanks around it. -/
theorem run_statusLineEnd {text : String} (h : IsReason (ofText text)) :
    statusLineEnd.run (0x20 :: (ofText text ++ (crlf ++ rest))) = .ok (text, rest) := by
  have hspace : statusLineEnd.run (0x20 :: (ofText text ++ (crlf ++ rest))) =
      reason.run (ofText text ++ (crlf ++ rest)) := rfl
  have hend : ∀ b ∈ (crlf ++ rest).head?, isTextByte b = false :=
    fun b hb => Option.some.inj hb ▸ by decide
  have hascii : (ofText text).all (· < 0x80) = true :=
    List.all_eq_true.mpr fun b hb => decide_eq_true (h b hb).2
  rw [hspace, reason, run_bind_of_ok (run_takeWhile_append (fun b hb => (h b hb).1) hend),
    run_bind_of_ok (run_lineEnd _), if_pos hascii, asciiText_ofText fun b hb => (h b hb).2]
  rfl

end Writing

end Scan

namespace ResponseHead

variable {head : ResponseHead} {raw : Bytes}

theorem gives_scan : Scan.Gives scan raw fun head _ => head.IsWellFormed := by
  refine Scan.gives_bind fun _ _ => Scan.gives_version.bind fun version _ hversion => ?_
  refine Scan.gives_bind fun _ _ => Scan.gives_status.bind fun status _ hstatus => ?_
  refine Scan.gives_statusLineEnd.bind fun reason _ hreason => ?_
  exact Scan.gives_headers.bind fun headers _ hheaders =>
    Scan.gives_pure ⟨hstatus, hreason, hversion, hheaders⟩

/-- The heads that are read. -/
theorem isWellFormed_of_parse (h : parse raw = .ok head) : head.IsWellFormed := by
  rw [parse, Scan.toHead] at h
  split at h
  next hrun =>
    cases h
    exact gives_scan _ _ hrun
  next => cases h
  next => cases h

/-- The parts of a written head. -/
theorem render_eq (head : ResponseHead) : head.render =
    ofText s!"HTTP/1.{head.version}" ++ 0x20 :: (ofText (toString head.status) ++
      0x20 :: (ofText head.reason ++ (crlf ++ head.headers.render))) := by
  have hspace : ofText " " = [0x20] := by decide +kernel
  rw [render]
  simp [Utf8.ofText_append, hspace, toString]

/-- The scan of a written head comes to its status. -/
theorem run_scan_eq (hversion : head.version ≤ 1) (more : Bytes) :
    scan.run (head.render ++ more) =
      (do
        let status ← Scan.status
        let reason ← Scan.statusLineEnd
        let headers ← Scan.headers
        return { status, reason, version := head.version, headers } : Scan ResponseHead).run
      (ofText (toString head.status) ++
        0x20 :: (ofText head.reason ++ (crlf ++ (head.headers.render ++ more)))) := by
  generalize hbehind : ofText (toString head.status) ++
    0x20 :: (ofText head.reason ++ (crlf ++ (head.headers.render ++ more))) = behind
  have hinput : head.render ++ more =
      ofText s!"HTTP/1.{head.version}" ++ 0x20 :: behind := by
    rw [← hbehind, render_eq]
    simp
  -- the version begins where the scan looks for empty lines
  obtain ⟨text, hbegin⟩ : ∃ text, ofText s!"HTTP/1.{head.version}" ++ 0x20 :: behind =
      0x48 :: text := by
    have hstem : ofText "HTTP/1." = 0x48 :: [0x54, 0x54, 0x50, 0x2F, 0x31, 0x2E] := by
      decide +kernel
    have hversion : ofText s!"HTTP/1.{head.version}" =
        ofText "HTTP/1." ++ ofText (toString head.version) := Utf8.ofText_append _ _
    rw [hversion, hstem]
    exact ⟨_, rfl⟩
  have hexpect : (Scan.expect 0x20 .version).run (0x20 :: behind) = .ok ((), behind) := rfl
  rw [hinput, hbegin, scan,
    run_bind_of_ok (Scan.run_emptyLines_of_ne (by decide) (by decide)), ← hbegin,
    run_bind_of_ok (Scan.run_version hversion), run_bind_of_ok hexpect]

/-- A head whose status has three digits is read off the front of what is written for it. -/
theorem run_scan_render (h : head.IsWellFormed) (hstatus : 100 ≤ head.status) (more : Bytes) :
    scan.run (head.render ++ more) = .ok (head, more) := by
  rw [run_scan_eq h.version, run_bind_of_ok (Scan.run_status hstatus h.status),
    run_bind_of_ok (Scan.run_statusLineEnd h.reason),
    run_bind_of_ok (Scan.run_headers h.headers)]
  rfl

/-- A head whose status has fewer digits is refused. -/
theorem parse_render_of_lt (h : head.IsWellFormed) (hstatus : head.status < 100) :
    parse head.render = .error (.invalid .response .status) := by
  have hrun : scan.run (head.render ++ []) = .error (.failed .status) := by
    rw [run_scan_eq h.version]
    exact run_bind_of_error (Scan.run_status_of_lt hstatus)
  rw [List.append_nil] at hrun
  rw [parse, Scan.toHead, hrun]

/-- The heads that are read back from what is written for them. -/
theorem parse_render_iff :
    parse head.render = .ok head ↔ head.IsWellFormed ∧ 100 ≤ head.status := by
  constructor
  · intro h
    have hwell := isWellFormed_of_parse h
    refine ⟨hwell, Nat.not_lt.mp fun hstatus => ?_⟩
    rw [parse_render_of_lt hwell hstatus] at h
    cases h
  · rintro ⟨hwell, hstatus⟩
    have hrun := run_scan_render hwell hstatus []
    rw [List.append_nil] at hrun
    rw [parse, Scan.toHead, hrun]

end ResponseHead

/-- A response head that was read is read back from what is written for it exactly if its status is
written with three digits. Otherwise what is written is refused. -/
theorem ResponseHead.parse_render_iff_three_digits {raw : Bytes} {head : ResponseHead}
    (h : parse raw = .ok head) :
    (parse head.render = .ok head ↔ 100 ≤ head.status) ∧
      (head.status < 100 → parse head.render = .error (.invalid .response .status)) := by
  have hwell := isWellFormed_of_parse h
  constructor
  · rw [parse_render_iff]
    exact and_iff_right hwell
  · exact parse_render_of_lt hwell

/-- A head with an empty line in front, bare line feeds, blanks around its reason and around a
value, and a byte that is no character. -/
theorem ResponseHead.parse_render_untidy_reason :
    let raw := ofText "\r\nHTTP/1.0 999  Odd \t\nServer:\t a \r\nX-Raw: " ++
      [0x62, 0xE2, 0x82, 0x62, 0xFF] ++ ofText " \n\n"
    let head : ResponseHead := ⟨999, " Odd \t", 0,
      ⟨[⟨"Server", "a"⟩, ⟨"X-Raw", "b\uFFFDb\uFFFD"⟩]⟩⟩
    parse raw = .ok head ∧ head.render ≠ raw ∧ parse head.render = .ok head := by
  intro raw head
  have hparse : parse raw = .ok head := by decide +kernel
  have hother : head.render ≠ raw := by decide +kernel
  exact ⟨hparse, hother, (parse_render_iff_three_digits hparse).1.mpr (by decide)⟩

/-- A status with a zero in front is read, and what is written for it is refused. -/
theorem ResponseHead.not_parse_render_leading_zero :
    let head : ResponseHead := { status := 99, reason := "Early" }
    parse (ofText "HTTP/1.1 099 Early\r\n\r\n") = .ok head ∧
      head.render = ofText "HTTP/1.1 99 Early\r\n\r\n" ∧
      parse head.render = .error (.invalid .response .status) := by
  decide +kernel

end HttpRelay.Http
