import HttpRelay.Http.Head
import HttpRelay.Proofs.Outcome
import Mathlib.Data.List.TakeDrop
import Mathlib.Data.List.TakeWhile

/-!
# Where a scanned head ends

A head in lines ends at its first empty line. The scans of heads agree: on such a head they never
want for bytes, and they leave none.

* `Bytes.IsHead`: a line that is not empty, and lines up to the first empty one;
* `Scan.Settles`: a scan that does not starve on an input, with what it leaves;
* `Scan.InLine`: the rest of a line, with what comes behind it;
* `RequestHead.settles_scan`, `ResponseHead.settles_scan`: a head is scanned to its end.
-/

namespace HttpRelay

namespace Bytes

/-- A line with the line feed that ends it. -/
def IsLine (line : Bytes) : Prop := ∃ text, lf ∉ text ∧ line = text ++ [lf]

/-- A line with nothing but its end. -/
def IsEmptyLine (line : Bytes) : Prop := line = [lf] ∨ line = crlf

/-- Lines up to the first empty one. -/
inductive EndsHead : Bytes → Prop
  | last {line : Bytes} : IsEmptyLine line → EndsHead line
  | line {line rest : Bytes} : IsLine line → ¬ IsEmptyLine line → EndsHead rest →
      EndsHead (line ++ rest)

/-- A line that is not empty, and lines up to the first empty one. -/
def IsHead (head : Bytes) : Prop :=
  ∃ first rest, head = first ++ rest ∧ IsLine first ∧ ¬ IsEmptyLine first ∧ EndsHead rest

/-- How a line that is not empty begins: not with its end. -/
theorem IsLine.begins {line : Bytes} (hline : IsLine line) (hsome : ¬ IsEmptyLine line)
    (more : Bytes) :
    ∃ b rest, line ++ more = b :: rest ∧ b ≠ lf ∧
      (b = cr → ∃ c rest', rest = c :: rest' ∧ c ≠ lf) := by
  obtain ⟨text, htext, rfl⟩ := hline
  cases text with
  | nil => exact absurd (.inl rfl) hsome
  | cons b text =>
    rw [List.mem_cons, not_or] at htext
    refine ⟨b, text ++ [lf] ++ more, rfl, Ne.symm htext.1, ?_⟩
    rintro rfl
    cases text with
    | nil => exact absurd (.inr rfl) hsome
    | cons c text =>
      exact ⟨c, text ++ [lf] ++ more, rfl, fun hlf => htext.2 (hlf ▸ List.mem_cons_self)⟩

end Bytes

namespace Http

open Bytes

namespace Scan

variable {α β : Type}

/-- A scan that does not starve on an input: it fails, or it gives a value and leaves bytes that
are as told. -/
def Settles (scan : Scan α) (input : Bytes) (leaves : α → Bytes → Prop) : Prop :=
  (∃ error, scan.run input = .error (.failed error)) ∨
    ∃ a rest, scan.run input = .ok (a, rest) ∧ leaves a rest

section Combining

variable {scan : Scan α} {next : α → Scan β} {input : Bytes} {leaves : α → Bytes → Prop}
  {leaves' : β → Bytes → Prop}

theorem settles_fail (error : SyntaxError) : Settles (fail error : Scan α) input leaves :=
  .inl ⟨error, rfl⟩

theorem settles_pure {a : α} (h : leaves a input) : Settles (pure a) input leaves :=
  .inr ⟨a, input, rfl, h⟩

/-- The second of two scans settles on what the first one leaves. -/
theorem Settles.bind (hscan : Settles scan input leaves)
    (hnext : ∀ a rest, leaves a rest → Settles (next a) rest leaves') :
    Settles (scan >>= next) input leaves' := by
  rw [Settles, StateT.run_bind]
  rcases hscan with ⟨error, hrun⟩ | ⟨a, rest, hrun, hleaves⟩
  · rw [hrun]
    exact .inl ⟨error, rfl⟩
  · rw [hrun]
    exact hnext a rest hleaves

/-- To look at the input takes nothing. -/
theorem settles_get_bind {next : Bytes → Scan β} (h : Settles (next input) input leaves') :
    Settles (get >>= next) input leaves' := h

theorem settles_set_bind {rest : Bytes} {next : PUnit → Scan β}
    (h : Settles (next ⟨⟩) rest leaves') : Settles (set rest >>= next) input leaves' := h

end Combining

theorem run_takeWhile (p : UInt8 → Bool) (input : Bytes) :
    (takeWhile p).run input = .ok (input.takeWhile p, input.dropWhile p) := by
  change Except.ok (input.span p) = _
  rw [List.span_eq_takeWhile_dropWhile]

theorem settles_expect_of_ne {byte b : UInt8} (h : b ≠ byte) (error : SyntaxError) (rest : Bytes) :
    Settles (expect byte error) (b :: rest) fun _ _ => False := by
  refine .inl ⟨error, ?_⟩
  change StateT.run (if b ≠ byte then fail error else pure () : Scan Unit) rest = _
  rw [if_pos h]
  rfl

/-- The rest of a line whose end has not been taken, with `more` behind the line. -/
def InLine (more rest : Bytes) : Prop := ∃ text, lf ∉ text ∧ rest = text ++ lf :: more

theorem inLine_of_isLine {line : Bytes} (h : IsLine line) (more : Bytes) :
    InLine more (line ++ more) := by
  obtain ⟨text, htext, rfl⟩ := h
  exact ⟨text, htext, by simp⟩

/-- Bytes without a line feed are taken off the rest of a line. -/
theorem InLine.drop {more input : Bytes} {n : Nat} (h : InLine more input)
    (hfront : lf ∉ input.take n) : InLine more (input.drop n) := by
  obtain ⟨text, htext, rfl⟩ := h
  have hle : n ≤ text.length := by
    refine Nat.le_of_not_lt fun hlt => hfront ?_
    obtain ⟨k, hk⟩ := Nat.exists_eq_add_of_lt hlt
    have hbehind : n - text.length = k + 1 := by omega
    rw [List.take_append, hbehind, List.take_succ_cons]
    exact List.mem_append_right _ List.mem_cons_self
  rw [List.drop_append_of_le_length hle]
  exact ⟨text.drop n, fun hmem => htext (List.mem_of_mem_drop hmem), rfl⟩

theorem InLine.lf_mem {more input : Bytes} (h : InLine more input) : lf ∈ input := by
  obtain ⟨text, -, rfl⟩ := h
  exact List.mem_append_right _ List.mem_cons_self

section Parts

variable {input more : Bytes} (h : InLine more input)

include h

/-- The next byte is the end of the line, or one of its text. -/
theorem settles_next : Settles next input fun b rest =>
    (b = lf ∧ rest = more) ∨ (b ≠ lf ∧ InLine more rest) := by
  obtain ⟨text, htext, rfl⟩ := h
  cases text with
  | nil => exact .inr ⟨lf, more, rfl, .inl ⟨rfl, rfl⟩⟩
  | cons b text =>
    rw [List.mem_cons, not_or] at htext
    exact .inr ⟨b, text ++ lf :: more, rfl, .inr ⟨Ne.symm htext.1, text, htext.2, rfl⟩⟩

theorem settles_expect {byte : UInt8} (hbyte : byte ≠ lf) (error : SyntaxError) :
    Settles (expect byte error) input fun _ rest => InLine more rest := by
  refine (settles_next h).bind fun b rest hrest => ?_
  split
  next => exact settles_fail error
  next hsame =>
    obtain rfl : b = byte := Classical.not_not.mp hsame
    exact settles_pure (hrest.resolve_left fun hlf => hbyte hlf.1).2

theorem settles_takeWhile {p : UInt8 → Bool} (hp : p lf = false) :
    Settles (takeWhile p) input fun _ rest => InLine more rest := by
  obtain ⟨text, htext, rfl⟩ := h
  refine .inr ⟨_, _, run_takeWhile p _, text.dropWhile p, ?_, ?_⟩
  · exact fun hmem => htext ((List.dropWhile_suffix p).subset hmem)
  · rw [List.dropWhile_append]
    split
    next hall =>
      rw [List.isEmpty_iff.mp hall, List.dropWhile_cons, if_neg (by simp [hp]), List.nil_append]
    next => rfl

/-- The end of a line takes the rest of it, or fails. -/
theorem settles_lineEnd (error : SyntaxError) :
    Settles (lineEnd error) input fun _ rest => rest = more := by
  refine (settles_next h).bind fun b rest hrest => ?_
  split
  next hcr =>
    -- behind a carriage return, only the line feed is taken
    have hline := (hrest.resolve_left fun hlf => absurd (hcr.symm.trans hlf.1) (by decide)).2
    refine (settles_next hline).bind fun b rest hrest => ?_
    split
    next => exact settles_fail error
    next hlf => exact settles_pure (hrest.resolve_right fun hother => hlf hother.1).2
  next =>
    split
    next => exact settles_fail error
    next hlf => exact settles_pure (hrest.resolve_right fun hother => hlf hother.1).2

theorem settles_method : Settles method input fun _ rest => InLine more rest := by
  refine (settles_takeWhile h (by decide)).bind fun token rest hrest => ?_
  refine (settles_next hrest).bind fun b rest hrest => ?_
  split
  next => exact settles_fail _
  next hspace =>
    have hb : b = 0x20 := by simp_all
    exact settles_pure (hrest.resolve_left fun hlf => absurd (hb.symm.trans hlf.1) (by decide)).2

theorem settles_target : Settles target input fun _ rest => InLine more rest := by
  refine (settles_takeWhile h (by decide)).bind fun target rest hrest => ?_
  refine (settles_next hrest).bind fun b rest hrest => ?_
  by_cases hspace : (b ≠ 0x20 || target.isEmpty) = true
  · rw [if_pos hspace]
    exact settles_fail _
  · rw [if_neg hspace]
    have hb : b = 0x20 := by simp_all
    have hline := (hrest.resolve_left fun hlf => absurd (hb.symm.trans hlf.1) (by decide)).2
    split
    next => exact settles_pure hline
    next => exact settles_fail _

theorem settles_version : Settles version input fun _ rest => InLine more rest := by
  refine settles_get_bind ?_
  dsimp only
  split
  next hlong =>
    refine settles_set_bind ?_
    split
    next hzero => exact settles_pure (h.drop (hzero ▸ by decide +kernel))
    next =>
      split
      next hone => exact settles_pure (h.drop (hone ▸ by decide +kernel))
      next => exact settles_fail _
  next hshort =>
    split
    next hstem =>
      -- the line feed is among the bytes that are there, and would be part of the stem
      have hall : input.take 8 = input := by
        rw [List.length_take] at hshort
        exact List.take_of_length_le (by omega)
      have hmem := (List.isPrefixOf_iff_prefix.mp hstem).subset (hall.symm ▸ h.lf_mem)
      exact absurd hmem (by decide +kernel)
    next => exact settles_fail _

theorem settles_digit : Settles digit input fun _ rest => InLine more rest := by
  refine (settles_next h).bind fun b rest hrest => ?_
  split
  next hdigit =>
    refine settles_pure (hrest.resolve_left ?_).2
    rintro ⟨rfl, -⟩
    exact absurd hdigit (by decide)
  next => exact settles_fail _

theorem settles_status : Settles status input fun _ rest => InLine more rest := by
  refine (settles_digit h).bind fun _ rest hrest => ?_
  refine (settles_digit hrest).bind fun _ rest hrest => ?_
  exact (settles_digit hrest).bind fun _ rest hrest => settles_pure hrest

theorem settles_reason : Settles reason input fun _ rest => rest = more := by
  refine (settles_takeWhile h (by decide)).bind fun text rest hrest => ?_
  exact (settles_lineEnd hrest _).bind fun _ rest hrest => settles_pure hrest

theorem settles_statusLineEnd : Settles statusLineEnd input fun _ rest => rest = more := by
  refine settles_get_bind ?_
  split
  next rest =>
    refine settles_set_bind ?_
    exact settles_reason (h.drop (n := 1) (by simp [lf]))
  next => exact (settles_lineEnd h _).bind fun _ rest hrest => settles_pure hrest

theorem settles_field : Settles field input fun _ rest => rest = more := by
  refine (settles_takeWhile h (by decide)).bind fun name rest hrest => ?_
  split
  next => exact settles_fail _
  next =>
    refine (settles_expect hrest (by decide) _).bind fun _ rest hrest => ?_
    refine (settles_takeWhile hrest (by decide)).bind fun _ rest hrest => ?_
    refine (settles_takeWhile hrest (by decide)).bind fun value rest hrest => ?_
    exact (settles_lineEnd hrest _).bind fun _ rest hrest => settles_pure hrest

end Parts

/-- The empty line behind the fields is found where it is. -/
theorem settles_headEnd_last {input : Bytes} (h : IsEmptyLine input) :
    Settles headEnd input fun found rest => found = true ∧ rest = [] := by
  rcases h with rfl | rfl
  · exact .inr ⟨true, [], rfl, rfl, rfl⟩
  · exact .inr ⟨true, [], rfl, rfl, rfl⟩

/-- No other line is taken for it. -/
theorem settles_headEnd_line {line : Bytes} (more : Bytes) (hline : IsLine line)
    (hsome : ¬ IsEmptyLine line) :
    Settles headEnd (line ++ more) fun found rest => found = false ∧ rest = line ++ more := by
  obtain ⟨b, rest, hbegin, hlf, hcr⟩ := hline.begins hsome more
  rw [hbegin]
  refine settles_get_bind ?_
  split
  next hnil => cases hnil
  next hinput =>
    -- a carriage return, and not the line feed behind it
    obtain ⟨rfl, rfl⟩ := List.cons.inj hinput
    obtain ⟨c, text, rfl, hc⟩ := hcr rfl
    refine settles_set_bind ?_
    exact (settles_expect_of_ne hc .newLine _).bind fun _ _ hnone => hnone.elim
  next hinput => exact absurd (List.cons.inj hinput).1 hlf
  next => exact settles_pure ⟨rfl, rfl⟩

/-- Fields are scanned up to the empty line behind them. -/
theorem settles_fieldsWithin {input : Bytes} (h : EndsHead input) (budget : Nat) :
    Settles (fieldsWithin budget) input fun _ rest => rest = [] := by
  induction h generalizing budget with
  | last hempty =>
    cases budget with
    | zero =>
      refine (settles_headEnd_last hempty).bind ?_
      rintro _ _ ⟨rfl, rfl⟩
      exact settles_pure rfl
    | succ budget =>
      refine (settles_headEnd_last hempty).bind ?_
      rintro _ _ ⟨rfl, rfl⟩
      exact settles_pure rfl
  | @line line rest hline hsome _ ih =>
    have hfield := settles_field (inLine_of_isLine hline rest)
    cases budget with
    | zero =>
      refine (settles_headEnd_line rest hline hsome).bind ?_
      rintro _ _ ⟨rfl, rfl⟩
      exact hfield.bind fun _ _ _ => settles_fail _
    | succ budget =>
      refine (settles_headEnd_line rest hline hsome).bind ?_
      rintro _ _ ⟨rfl, rfl⟩
      refine hfield.bind ?_
      rintro first _ rfl
      exact (ih budget).bind fun _ _ hrest => settles_pure hrest

theorem settles_headers {input : Bytes} (h : EndsHead input) :
    Settles headers input fun _ rest => rest = [] :=
  (settles_fieldsWithin h maxFields).bind fun _ _ hrest => settles_pure hrest

/-- Bytes that do not begin with an empty line are kept, unless they begin with a carriage return
of their own. -/
theorem dropEmptyLines_cons {b : UInt8} {rest : Bytes} (hlf : b ≠ lf)
    (hcr : b = cr → ∃ c rest', rest = c :: rest' ∧ c ≠ lf) :
    dropEmptyLines (b :: rest) = .ok (b :: rest) ∨
      dropEmptyLines (b :: rest) = .error (.failed .newLine) := by
  unfold dropEmptyLines
  split
  next hinput =>
    obtain ⟨rfl, rfl⟩ := List.cons.inj hinput
    obtain ⟨c, rest, hrest, hc⟩ := hcr rfl
    exact absurd (List.cons.inj hrest).1.symm hc
  next hinput =>
    obtain ⟨rfl, rfl⟩ := List.cons.inj hinput
    obtain ⟨c, rest, hrest, -⟩ := hcr rfl
    cases hrest
  next hinput => exact .inr rfl
  next hinput => exact absurd (List.cons.inj hinput).1 hlf
  next hinput => cases hinput
  next => exact .inl rfl

theorem run_emptyLines (input : Bytes) :
    emptyLines.run input = (dropEmptyLines input).map fun kept => ((), kept) := by
  change (((dropEmptyLines input) >>= fun kept => pure (kept, input)) >>=
    fun seen => (set seen.1 : Scan PUnit).run seen.2) = _
  cases dropEmptyLines input <;> rfl

/-- There is no empty line in front of a head. -/
theorem settles_emptyLines {input : Bytes} (h : IsHead input) :
    Settles emptyLines input fun _ rest => rest = input := by
  obtain ⟨first, rest, rfl, hfirst, hsome, -⟩ := h
  obtain ⟨b, text, hbegin, hlf, hcr⟩ := hfirst.begins hsome rest
  rw [hbegin, Settles, run_emptyLines]
  rcases dropEmptyLines_cons hlf hcr with hkept | hbroken
  · rw [hkept]
    exact .inr ⟨⟨⟩, _, rfl, rfl⟩
  · rw [hbroken]
    exact .inl ⟨_, rfl⟩

end Scan

/-- A head is scanned to its end. -/
theorem RequestHead.settles_scan {input : Bytes} (h : IsHead input) :
    Scan.Settles scan input fun _ rest => rest = [] := by
  refine (Scan.settles_emptyLines h).bind ?_
  rintro _ _ rfl
  obtain ⟨first, rest, rfl, hfirst, -, hrest⟩ := h
  refine (Scan.settles_method (Scan.inLine_of_isLine hfirst rest)).bind fun method _ hline => ?_
  refine (Scan.settles_target hline).bind fun target _ hline => ?_
  refine (Scan.settles_version hline).bind fun version _ hline => ?_
  refine (Scan.settles_lineEnd hline _).bind ?_
  rintro _ _ rfl
  exact (Scan.settles_headers hrest).bind fun headers _ hend => Scan.settles_pure hend

theorem ResponseHead.settles_scan {input : Bytes} (h : IsHead input) :
    Scan.Settles scan input fun _ rest => rest = [] := by
  refine (Scan.settles_emptyLines h).bind ?_
  rintro _ _ rfl
  obtain ⟨first, rest, rfl, hfirst, -, hrest⟩ := h
  refine (Scan.settles_version (Scan.inLine_of_isLine hfirst rest)).bind fun version _ hline => ?_
  refine (Scan.settles_expect hline (by decide) _).bind fun _ _ hline => ?_
  refine (Scan.settles_status hline).bind fun status _ hline => ?_
  refine (Scan.settles_statusLineEnd hline).bind ?_
  rintro reason _ rfl
  exact (Scan.settles_headers hrest).bind fun headers _ hend => Scan.settles_pure hend

/-- A scan that settles at the end of its input does not find it incomplete, and takes all of it
where it takes it. -/
theorem Scan.Settles.toHead_whole {α : Type} {scan : Scan α} {input : Bytes}
    (h : Settles scan input fun _ rest => rest = []) (kind : MessageKind) :
    toHead kind scan input ≠ .error (.incomplete kind) ∧
      ∀ head, toHead kind scan input = .ok head → scan.run input = .ok (head, []) := by
  rcases h with ⟨error, hrun⟩ | ⟨head, _, hrun, rfl⟩
  · have hparse : toHead kind scan input = .error (.invalid kind error) := by
      rw [Scan.toHead, hrun]
    rw [hparse]
    exact ⟨nofun, nofun⟩
  · have hparse : toHead kind scan input = .ok head := by rw [Scan.toHead, hrun]
    rw [hparse]
    exact ⟨nofun, fun _ hsame => Except.ok.inj hsame ▸ hrun⟩

end Http

end HttpRelay
