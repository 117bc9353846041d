import HttpRelay.Proofs.Http.HeadScanning
import HttpRelay.Proofs.Text.Utf8Decoding
import Mathlib.Data.List.DropRight

/-!
# Fields that are read back

The texts that the scans of heads give spell what they were read from, ill-formed parts and the
blanks around a value apart. Such texts are read back from what is written for them.

* `Scan.Gives`: what a scan gives on an input, where it gives anything;
* `IsToken`, `IsValue`: the bytes of the texts that are read;
* `Field.IsWellFormed`, `Scan.gives_field`: the fields that are read;
* `Scan.run_field`, `Scan.run_headers`: such fields are read back.
-/

namespace HttpRelay

open Bytes Text
open Outcome (run_bind_of_ok)

namespace Http

/-- Bytes that a method or the name of a field may have. -/
def IsToken (bytes : Bytes) : Prop := bytes ≠ [] ∧ ∀ b ∈ bytes, Scan.isTokenByte b = true

/-- Bytes that the value of a field may have, with no blanks around them. -/
def IsValue (bytes : Bytes) : Prop :=
  (∀ b ∈ bytes, Scan.isTextByte b = true) ∧ (∀ b ∈ bytes.head?, Scan.isSpaceByte b = false) ∧
    ∀ b ∈ bytes.getLast?, Scan.isSpaceByte b = false

/-- A field as it is read. -/
def Field.IsWellFormed (field : Field) : Prop :=
  IsToken (ofText field.name) ∧ IsValue (ofText field.value)

/-- Fields as they are read, and not too many of them. -/
def Headers.IsWellFormed (h : Headers) : Prop :=
  h.size ≤ Scan.maxFields ∧ ∀ field ∈ h.fields, field.IsWellFormed

/-- A token begins with a byte that ends no line. -/
theorem IsToken.begins {token : Bytes} (h : IsToken token) (rest : Bytes) :
    ∃ b text, token ++ rest = b :: text ∧ b ≠ cr ∧ b ≠ lf := by
  obtain ⟨hsome, htoken⟩ := h
  cases token with
  | nil => exact absurd rfl hsome
  | cons b text =>
    have hb := htoken b List.mem_cons_self
    refine ⟨b, text ++ rest, rfl, ?_, ?_⟩
    · rintro rfl
      exact absurd hb (by decide +kernel)
    · rintro rfl
      exact absurd hb (by decide +kernel)

section Values

open Scan

/-- The last byte of a string without the blanks at its end is none. -/
theorem forall_mem_getLast?_iff {bytes : Bytes} :
    (∀ b ∈ bytes.getLast?, isSpaceByte b = false) ↔ bytes.rdropWhile isSpaceByte = bytes := by
  rw [List.rdropWhile_eq_self_iff]
  cases bytes using List.reverseRecOn with
  | nil => simp
  | append_singleton front b => simp

/-- What is left of a value without the blanks at its end. -/
theorem isValue_rdropWhile {value : Bytes} (htext : ∀ b ∈ value, isTextByte b = true)
    (hfront : ∀ b ∈ value.head?, isSpaceByte b = false) :
    IsValue (value.rdropWhile isSpaceByte) := by
  have hkept := List.rdropWhile_prefix isSpaceByte value
  refine ⟨fun b hb => htext b (hkept.subset hb), fun b hb => ?_, ?_⟩
  · obtain ⟨behind, hvalue⟩ := hkept
    refine hfront b ?_
    rw [Option.mem_def] at hb ⊢
    rw [← hvalue, List.head?_append, hb]
    rfl
  · exact forall_mem_getLast?_iff.mpr (List.rdropWhile_idempotent isSpaceByte value)

/-- The replacement of ill-formed parts leaves a value that may stand in a field. -/
theorem IsValue.mends {bytes mended : Bytes} (hvalue : IsValue bytes)
    (hmends : Utf8.Mends bytes mended) : IsValue mended := by
  obtain ⟨htext, hfront, hlast⟩ := hvalue
  -- none of the bytes of the replacement is a blank, at either end
  refine ⟨fun b hb => ?_, ?_, ?_⟩
  · have hreplacement : ∀ b ∈ Utf8.replacement, isTextByte b = true :=
      List.all_eq_true.mp (by decide)
    exact (hmends.mem hb).elim (htext b) (hreplacement b)
  · rcases hmends.head? with hsame | hreplaced
    · rwa [hsame]
    · rw [hreplaced]
      exact fun b hb => Option.some.inj hb ▸ rfl
  · rcases hmends.getLast? with hsame | hreplaced
    · rwa [hsame]
    · rw [hreplaced]
      exact fun b hb => Option.some.inj hb ▸ rfl

end Values

namespace Scan

variable {α β : Type}

section Ascii

/-- The bytes of a token are ASCII. -/
theorem lt_of_isTokenByte {b : UInt8} (h : isTokenByte b = true) : b < 0x80 := by
  have hmarks : ∀ b ∈ ofText "!#$%&'*+-.^_" ++ [0x60] ++ ofText "|~", b < 0x80 := by
    decide +kernel
  simp only [isTokenByte, Bool.or_eq_true, List.contains_iff_mem] at h
  rcases h with hword | hmark
  · simp only [Bool.and_eq_true, decide_eq_true_eq, UInt8.le_iff_toNat_le] at hword
    simp only [UInt8.lt_iff_toNat_lt, UInt8.reduceToNat] at hword ⊢
    omega
  · exact hmarks b hmark

theorem ofText_asciiText {bytes : Bytes} (h : ∀ b ∈ bytes, b < 0x80) :
    ofText (asciiText bytes) = bytes := by
  rw [ofText, asciiText, String.toList_ofList]
  exact Utf8.flatMap_of_pieces (Utf8.pieces_ascii h)

theorem asciiText_ofText {text : String} (h : ∀ b ∈ ofText text, b < 0x80) :
    asciiText (ofText text) = text :=
  Utf8.ofText_inj.mp (ofText_asciiText h)

end Ascii

/-- What a scan gives and leaves on an input, where it gives anything. -/
def Gives (scan : Scan α) (input : Bytes) (gives : α → Bytes → Prop) : Prop :=
  ∀ a rest, scan.run input = .ok (a, rest) → gives a rest

section Giving

variable {scan : Scan α} {next : α → Scan β} {input : Bytes} {gives : α → Bytes → Prop}
  {gives' : β → Bytes → Prop}

theorem gives_fail (error : SyntaxError) : Gives (fail error : Scan α) input gives := nofun

theorem gives_pure {a : α} (h : gives a input) : Gives (pure a) input gives := by
  intro a' rest hrun
  cases hrun
  exact h

/-- The second of two scans runs on what the first one leaves. -/
theorem Gives.bind (hscan : Gives scan input gives)
    (hnext : ∀ a rest, gives a rest → Gives (next a) rest gives') :
    Gives (scan >>= next) input gives' := by
  intro b rest hrun
  rw [StateT.run_bind, Outcome.bind_eq_ok] at hrun
  obtain ⟨⟨a, rest'⟩, hfirst, hsecond⟩ := hrun
  exact hnext a rest' (hscan a rest' hfirst) b rest hsecond

/-- Nothing need be known of the first of two scans. -/
theorem gives_bind (hnext : ∀ a rest, Gives (next a) rest gives') :
    Gives (scan >>= next) input gives' := by
  have hscan : Gives scan input fun _ _ => True := fun _ _ _ => trivial
  exact hscan.bind fun a rest _ => hnext a rest

end Giving

section Parts

variable {input : Bytes}

theorem gives_takeWhile {p : UInt8 → Bool} : Gives (takeWhile p) input fun taken rest =>
    input = taken ++ rest ∧ (∀ b ∈ taken, p b = true) ∧ ∀ b ∈ rest.head?, p b = false := by
  intro taken rest hrun
  rw [run_takeWhile] at hrun
  cases hrun
  refine ⟨List.takeWhile_append_dropWhile.symm, fun b => List.mem_takeWhile_imp, fun b hb => ?_⟩
  have hstop := List.head?_dropWhile_not p input
  rw [Option.mem_def] at hb
  rw [hb] at hstop
  simpa using hstop

/-- The text of a token is encoded by it. -/
theorem isToken_asciiText {token : Bytes} (hsome : token ≠ [])
    (htoken : ∀ b ∈ token, isTokenByte b = true) : IsToken (ofText (asciiText token)) := by
  rw [ofText_asciiText fun b hb => lt_of_isTokenByte (htoken b hb)]
  exact ⟨hsome, htoken⟩

/-- The versions that are read are 1.0 and 1.1. -/
theorem gives_version : Gives version input fun n _ => n ≤ 1 := by
  refine gives_bind fun front rest => ?_
  dsimp only
  split
  next =>
    refine gives_bind fun _ rest => ?_
    split
    next => exact gives_pure (Nat.zero_le 1)
    next =>
      split
      next => exact gives_pure (Nat.le_refl 1)
      next => exact gives_fail _
  next =>
    split
    next => exact nofun
    next => exact gives_fail _

/-- A field that is read has a token for a name, and a value without blanks around it. -/
theorem gives_field : Gives field input fun field _ => field.IsWellFormed := by
  refine gives_takeWhile.bind fun name rest hname => ?_
  split
  next => exact gives_fail _
  next hsome =>
    refine gives_bind fun _ rest => ?_
    refine gives_takeWhile.bind fun _ rest hblank => ?_
    refine gives_takeWhile.bind fun value rest hvalue => gives_bind fun _ rest => gives_pure ?_
    have hne : name ≠ [] := by
      rintro rfl
      exact hsome rfl
    -- the value begins behind all blanks
    have hfront : ∀ b ∈ value.head?, isSpaceByte b = false := by
      intro b hb
      refine hblank.2.2 b ?_
      rw [Option.mem_def] at hb ⊢
      rw [hvalue.1, List.head?_append, hb]
      rfl
    exact ⟨isToken_asciiText hne hname.2.1,
      (isValue_rdropWhile hvalue.2.1 hfront).mends (Utf8.mends_ofText_decodeLossy _)⟩

theorem gives_fieldsWithin (budget : Nat) (input : Bytes) :
    Gives (fieldsWithin budget) input fun fields _ =>
      fields.length ≤ budget ∧ ∀ field ∈ fields, field.IsWellFormed := by
  -- the recursion of the scan is on the budget, which bounds the fields
  induction budget generalizing input with
  | zero =>
    refine gives_bind fun found rest => ?_
    split
    next => exact gives_pure ⟨Nat.le_refl 0, nofun⟩
    next => exact gives_bind fun _ rest => gives_fail _
  | succ budget ih =>
    refine gives_bind fun found rest => ?_
    split
    next => exact gives_pure ⟨Nat.zero_le _, nofun⟩
    next =>
      refine gives_field.bind fun first rest hfirst => (ih rest).bind fun fields rest hfields => ?_
      exact gives_pure ⟨Nat.succ_le_succ hfields.1,
        List.forall_mem_cons.mpr ⟨hfirst, hfields.2⟩⟩

theorem gives_headers : Gives headers input fun h _ => h.IsWellFormed :=
  (gives_fieldsWithin maxFields input).bind fun _ _ hfields => gives_pure hfields

end Parts

section Written

variable {input rest : Bytes}

/-- Bytes of a class are taken up to one that is not of it. -/
theorem run_takeWhile_append {p : UInt8 → Bool} {taken : Bytes} (htaken : ∀ b ∈ taken, p b = true)
    (hstop : ∀ b ∈ rest.head?, p b = false) :
    (takeWhile p).run (taken ++ rest) = .ok (taken, rest) := by
  have hnone : rest.takeWhile p = [] ∧ rest.dropWhile p = rest := by
    cases rest with
    | nil => exact ⟨rfl, rfl⟩
    | cons b rest => simp [hstop b rfl]
  rw [run_takeWhile, List.takeWhile_append_of_pos htaken, List.dropWhile_append_of_pos htaken,
    hnone.1, hnone.2, List.append_nil]

theorem run_lineEnd (error : SyntaxError) : (lineEnd error).run (crlf ++ rest) = .ok ((), rest) :=
  rfl

/-- There are no empty lines in front of a line that begins with a byte of its text. -/
theorem run_emptyLines_of_ne {b : UInt8} (hcr : b ≠ cr) (hlf : b ≠ lf) :
    emptyLines.run (b :: rest) = .ok ((), b :: rest) := by
  have hkept : dropEmptyLines (b :: rest) = .ok (b :: rest) := by
    unfold dropEmptyLines
    split
    next hinput => exact absurd (List.cons.inj hinput).1 hcr
    next hinput => exact absurd (List.cons.inj hinput).1 hcr
    next hinput => exact absurd (List.cons.inj hinput).1 hcr
    next hinput => exact absurd (List.cons.inj hinput).1 hlf
    next hinput => cases hinput
    next => rfl
  rw [run_emptyLines, hkept]
  rfl

theorem run_version {n : Nat} (h : n ≤ 1) :
    version.run (ofText s!"HTTP/1.{n}" ++ rest) = .ok (n, rest) := by
  have hzero : ofText s!"HTTP/1.{0}" = [72, 84, 84, 80, 47, 49, 46, 48] := by decide +kernel
  have hone : ofText s!"HTTP/1.{1}" = [72, 84, 84, 80, 47, 49, 46, 49] := by decide +kernel
  have hn : n = 0 ∨ n = 1 := by omega
  rcases hn with rfl | rfl
  · rw [hzero]
    rfl
  · rw [hone]
    rfl

/-- A field is read back. Its name ends at the colon and its value at the end of the line, and one
blank stands between them. -/
theorem run_field {field : Field} (h : field.IsWellFormed) :
    Scan.field.run (ofText field.name ++ ofText ": " ++ ofText field.value ++ crlf ++ rest) =
      .ok (field, rest) := by
  obtain ⟨⟨hsome, hname⟩, htext, hfront, hlast⟩ := h
  have hcolon : ofText ": " = [0x3A, 0x20] := by decide +kernel
  have hinput : ofText field.name ++ ofText ": " ++ ofText field.value ++ crlf ++ rest =
      ofText field.name ++ (0x3A :: ([0x20] ++ (ofText field.value ++ (crlf ++ rest)))) := by
    simp [hcolon]
  have hne : ¬ (ofText field.name).isEmpty = true := by simpa using hsome
  have hnameEnd : ∀ more : Bytes, ∀ b ∈ (0x3A :: more).head?, isTokenByte b = false :=
    fun _ b hb => Option.some.inj hb ▸ by decide +kernel
  have hexpect : ∀ more, (expect 0x3A .headerName).run (0x3A :: more) = .ok ((), more) :=
    fun _ => rfl
  have hblank : ∀ b ∈ ([0x20] : Bytes), isSpaceByte b = true := List.forall_mem_singleton.mpr rfl
  have hblankEnd : ∀ b ∈ (ofText field.value ++ (crlf ++ rest)).head?, isSpaceByte b = false := by
    rw [List.head?_append]
    cases hvalue : (ofText field.value).head? with
    | none => exact fun b hb => Option.some.inj hb ▸ rfl
    | some b => exact fun b' hb' => hfront b' (hvalue.trans hb')
  have hvalueEnd : ∀ b ∈ (crlf ++ rest).head?, isTextByte b = false :=
    fun b hb => Option.some.inj hb ▸ by decide
  have hascii := asciiText_ofText fun b hb => lt_of_isTokenByte (hname b hb)
  have htrimmed : ((ofText field.value).reverse.dropWhile isSpaceByte).reverse =
      ofText field.value := forall_mem_getLast?_iff.mp hlast
  rw [hinput, Scan.field, run_bind_of_ok (run_takeWhile_append hname (hnameEnd _)), if_neg hne]
  beta_reduce
  rw [run_bind_of_ok (hexpect _), run_bind_of_ok (run_takeWhile_append hblank hblankEnd),
    run_bind_of_ok (run_takeWhile_append htext hvalueEnd), run_bind_of_ok (run_lineEnd _)]
  dsimp only
  rw [htrimmed, hascii, Utf8.decodeLossy_ofText]
  rfl

/-- The line of a field is not the empty one behind the fields. -/
theorem run_headEnd_of_token {token : Bytes} (h : IsToken token) :
    headEnd.run (token ++ rest) = .ok (false, token ++ rest) := by
  obtain ⟨b, text, hbegin, hcr, hlf⟩ := h.begins rest
  rw [hbegin]
  change StateT.run (match b :: text with
    | [] => throw .starved
    | 13 :: rest => do set rest; expect lf .newLine; return true
    | 10 :: rest => do set rest; return true
    | _ => return false) (b :: text) = _
  split
  next hinput => cases hinput
  next hinput => exact absurd (List.cons.inj hinput).1 hcr
  next hinput => exact absurd (List.cons.inj hinput).1 hlf
  next => rfl

/-- Fields are read back, one after the other, up to the empty line. -/
theorem run_fieldsWithin {fields : List Field} {budget : Nat} (hsize : fields.length ≤ budget)
    (hfields : ∀ field ∈ fields, field.IsWellFormed) :
    (fieldsWithin budget).run (Headers.render ⟨fields⟩ ++ rest) = .ok (fields, rest) := by
  -- every field that is written takes one off the budget
  induction fields generalizing budget with
  | nil =>
    cases budget <;> rfl
  | cons first fields ih =>
    cases budget with
    | zero => cases hsize
    | succ budget =>
      obtain ⟨hfirst, hfields⟩ := List.forall_mem_cons.mp hfields
      -- what is written begins with a token, so that the scan does not take it for the empty line
      have hinput : Headers.render ⟨first :: fields⟩ ++ rest =
          ofText first.name ++ (ofText ": " ++ ofText first.value ++ crlf ++
            (Headers.render ⟨fields⟩ ++ rest)) := by
        simp [Headers.render]
      have hfield : Scan.field.run (Headers.render ⟨first :: fields⟩ ++ rest) =
          .ok (first, Headers.render ⟨fields⟩ ++ rest) := by
        rw [hinput, ← run_field hfirst]
        simp
      have hmore : headEnd.run (Headers.render ⟨first :: fields⟩ ++ rest) =
          .ok (false, Headers.render ⟨first :: fields⟩ ++ rest) := by
        rw [hinput]
        exact run_headEnd_of_token hfirst.1
      rw [fieldsWithin, run_bind_of_ok hmore, if_neg (by decide), run_bind_of_ok hfield,
        run_bind_of_ok (ih (Nat.le_of_succ_le_succ hsize) hfields)]
      rfl

/-- The fields of a head are read back. -/
theorem run_headers {h : Headers} (hwell : h.IsWellFormed) :
    headers.run (h.render ++ rest) = .ok (h, rest) := by
  rw [headers, run_bind_of_ok (run_fieldsWithin hwell.1 hwell.2)]
  rfl

end Written

end Scan

end Http

end HttpRelay
