import HttpRelay.Http.Head
import HttpRelay.Proofs.Http.FieldWriting

/-!
# Request heads that are read back

A request head that was read is read back from what is written for it, whatever ends of lines,
blanks, empty lines and ill-formed characters it was read from.

* `RequestHead.IsWellFormed`, `RequestHead.isWellFormed_of_parse`: the heads that are read;
* `RequestHead.run_scan_render`: such a head is read off the front of what is written;
* `RequestHead.parse_render_iff`: no other head is read back;
* `RequestHead.render_append_inj`: written heads are told apart from what is behind them;
* `RequestHead.parse_render_of_parse`: a head that was read is read back.
-/

namespace HttpRelay.Http

open Bytes Text
open Outcome (run_bind_of_ok)

/-- Bytes that a target may have. -/
def IsTarget (bytes : Bytes) : Prop := bytes ≠ [] ∧ ∀ b ∈ bytes, Scan.isTargetByte b = true

/-- A request head as it is read. -/
structure RequestHead.IsWellFormed (head : RequestHead) : Prop where
  method : IsToken (ofText head.method)
  target : IsTarget (ofText head.target)
  version : head.version ≤ 1
  headers : head.headers.IsWellFormed

namespace Scan

section Parts

variable {input rest : Bytes}

theorem gives_method : Gives method input fun text _ => IsToken (ofText text) := by
  refine gives_takeWhile.bind fun token rest htoken => gives_bind fun b rest => ?_
  split
  next => exact gives_fail _
  next hsome =>
    have hne : token ≠ [] := by
      rintro rfl
      simp at hsome
    exact gives_pure (isToken_asciiText hne htoken.2.1)

theorem gives_target : Gives target input fun text _ => IsTarget (ofText text) := by
  refine gives_takeWhile.bind fun bytes rest hbytes => gives_bind fun b rest => ?_
  by_cases hspace : (b ≠ 0x20 || bytes.isEmpty) = true
  · rw [if_pos hspace]
    exact gives_fail _
  · rw [if_neg hspace]
    split
    next text htext =>
      have hne : bytes ≠ [] := by
        rintro rfl
        simp at hspace
      refine gives_pure ?_
      rw [Utf8.ofText_of_decode? htext]
      exact ⟨hne, hbytes.2.1⟩
    next => exact gives_fail _

theorem run_method {text : String} (h : IsToken (ofText text)) :
    method.run (ofText text ++ 0x20 :: rest) = .ok (text, rest) := by
  have hnext : next.run (0x20 :: rest) = .ok (0x20, rest) := rfl
  have hascii := asciiText_ofText fun b hb => lt_of_isTokenByte (h.2 b hb)
  have hne : ¬ ((ofText text).isEmpty || (0x20 : UInt8) ≠ 0x20) = true := by simpa using h.1
  have hstop : ∀ b ∈ (0x20 :: rest).head?, isTokenByte b = false :=
    fun b hb => Option.some.inj hb ▸ by decide +kernel
  rw [method, run_bind_of_ok (run_takeWhile_append h.2 hstop), run_bind_of_ok hnext, if_neg hne,
    hascii]
  rfl

theorem run_target {text : String} (h : IsTarget (ofText text)) :
    target.run (ofText text ++ 0x20 :: rest) = .ok (text, rest) := by
  have hnext : next.run (0x20 :: rest) = .ok (0x20, rest) := rfl
  have hne : ¬ ((0x20 : UInt8) ≠ 0x20 || (ofText text).isEmpty) = true := by simpa using h.1
  have hstop : ∀ b ∈ (0x20 :: rest).head?, isTargetByte b = false :=
    fun b hb => Option.some.inj hb ▸ by decide
  rw [target, run_bind_of_ok (run_takeWhile_append h.2 hstop), run_bind_of_ok hnext, if_neg hne,
    Utf8.decode?_ofText]
  rfl

end Parts

end Scan

namespace RequestHead

variable {head : RequestHead} {raw : Bytes}

theorem gives_scan : Scan.Gives scan raw fun head _ => head.IsWellFormed := by
  refine Scan.gives_bind fun _ _ => ?_
  refine Scan.gives_method.bind fun method _ hmethod => ?_
  refine Scan.gives_target.bind fun target _ htarget => ?_
  refine Scan.gives_version.bind fun version _ hversion => Scan.gives_bind fun _ _ => ?_
  exact Scan.gives_headers.bind fun headers _ hheaders =>
    Scan.gives_pure ⟨hmethod, htarget, hversion, hheaders⟩

/-- The heads that are read. -/
theorem isWellFormed_of_parse (h : parse raw = .ok head) : head.IsWellFormed := by
  rw [parse, Scan.toHead] at h
  split at h
  next hrun =>
    cases h
    exact gives_scan _ _ hrun
  next => cases h
  next => cases h

/-- The parts of a written head. -/
theorem render_eq (head : RequestHead) : head.render =
    ofText head.method ++ 0x20 :: (ofText head.target ++ 0x20 ::
      (ofText s!"HTTP/1.{head.version}" ++ (crlf ++ head.headers.render))) := by
  have hspace : ofText " " = [0x20] := by decide +kernel
  have hstem : ofText " HTTP/1." = 0x20 :: ofText "HTTP/1." := by decide +kernel
  rw [render]
  simp [Utf8.ofText_append, hspace, hstem, toString]

/-- A head is read off the front of what is written for it. -/
theorem run_scan_render (h : head.IsWellFormed) (more : Bytes) :
    scan.run (head.render ++ more) = .ok (head, more) := by
  -- the method begins where the scan looks for empty lines
  obtain ⟨b, text, hbegin, hcr, hlf⟩ := h.method.begins
    (0x20 :: (ofText head.target ++ 0x20 ::
      (ofText s!"HTTP/1.{head.version}" ++ (crlf ++ (head.headers.render ++ more)))))
  have hinput : head.render ++ more = b :: text := by
    rw [← hbegin, render_eq]
    simp
  rw [hinput, scan, run_bind_of_ok (Scan.run_emptyLines_of_ne hcr hlf), ← hbegin,
    run_bind_of_ok (Scan.run_method h.method), run_bind_of_ok (Scan.run_target h.target),
    run_bind_of_ok (Scan.run_version h.version), run_bind_of_ok (Scan.run_lineEnd _),
    run_bind_of_ok (Scan.run_headers h.headers)]
  rfl

/-- The heads that are read back from what is written for them are those that are read at all. -/
theorem parse_render_iff : parse head.render = .ok head ↔ head.IsWellFormed := by
  constructor
  · exact isWellFormed_of_parse
  · intro h
    have hrun := run_scan_render h []
    rw [List.append_nil] at hrun
    rw [parse, Scan.toHead, hrun]

/-- Heads that are written one behind the other are told apart: none is the front of another. -/
theorem render_append_inj {head' : RequestHead} {more more' : Bytes} (h : head.IsWellFormed)
    (h' : head'.IsWellFormed) :
    head.render ++ more = head'.render ++ more' ↔ head = head' ∧ more = more' := by
  constructor
  · intro hsame
    have hrun := run_scan_render h more
    rw [hsame, run_scan_render h' more', Except.ok.injEq, Prod.mk.injEq] at hrun
    exact ⟨hrun.1.symm, hrun.2.symm⟩
  · rintro ⟨rfl, rfl⟩
    rfl

end RequestHead

/-- A request head that was read is read back from what is written for it. -/
theorem RequestHead.parse_render_of_parse {raw : Bytes} {head : RequestHead}
    (h : parse raw = .ok head) : parse head.render = .ok head :=
  parse_render_iff.mpr (isWellFormed_of_parse h)

/-- A head in the untidiest form that is read, with an empty line in front, bare line feeds, blanks
around a value, a value with nothing but blanks, a byte that is no character and a target outside
ASCII. -/
theorem RequestHead.parse_render_untidy :
    let raw := ofText "\r\nGET /\u00e9 HTTP/1.0\nHost:\t a \r\nX-Empty: \t\nX-Raw: " ++
      [0x62, 0xE2, 0x82, 0x62, 0xFF] ++ ofText " \n\n"
    let head : RequestHead := ⟨"GET", "/\u00e9", 0,
      ⟨[⟨"Host", "a"⟩, ⟨"X-Empty", ""⟩, ⟨"X-Raw", "b\uFFFDb\uFFFD"⟩]⟩⟩
    parse raw = .ok head ∧ head.render ≠ raw ∧ parse head.render = .ok head := by
  intro raw head
  have hparse : parse raw = .ok head := by decide +kernel
  have hother : head.render ≠ raw := by decide +kernel
  exact ⟨hparse, hother, parse_render_of_parse hparse⟩

end HttpRelay.Http
