import HttpRelay.Json.Reader
import HttpRelay.Json.Value
import HttpRelay.Proofs.Outcome
import HttpRelay.Proofs.Text.Hexadecimal
import HttpRelay.Proofs.Text.Utf8Decoding
import Mathlib.Data.List.Basic
import Mathlib.Data.List.TakeDrop
import Mathlib.Data.List.TakeWhile

/-!
# Objects of one field that are read back

An object that holds one integer is read back from what is written of it, if the integer is within
the bounds that are asked for.

* `IsBare`, `Read.run_text`: a text whose characters stand for themselves;
* `numeralOf`, `Read.run_numeral`: an integer in its digits;
* `Read.run_integer`: it is taken if it is within the bounds;
* `Read.whole_object`: the object that holds it.
-/

namespace HttpRelay.Json

open Bytes Outcome

/-- A character that is written as one octet, and stands for itself between quotation marks. -/
def IsBare (c : Char) : Prop := ' ' ≤ c ∧ c.toNat < 128 ∧ c ≠ '"' ∧ c ≠ '\\'

instance (c : Char) : Decidable (IsBare c) := inferInstanceAs (Decidable (_ ∧ _ ∧ _ ∧ _))

theorem escape_of_isBare {c : Char} (h : IsBare c) : Value.escape c = [c] := by
  obtain ⟨hprint, -, hquote, hescape⟩ := h
  have hlow : ¬ c < ' ' := Char.not_lt.mpr hprint
  unfold Value.escape
  split
  case h_1 => exact absurd rfl hquote
  case h_2 => exact absurd rfl hescape
  case h_8 => rw [if_neg hlow]
  all_goals exact absurd hprint (by decide)

/-- The octet of a character in ASCII. -/
def octet (c : Char) : UInt8 := UInt8.ofNat c.toNat

theorem ofNat_octet {c : Char} (h : c.toNat < 128) : Char.ofNat (octet c).toNat = c := by
  have hbyte : (octet c).toNat = c.toNat := Nat.mod_eq_of_lt (by omega : c.toNat < 2 ^ 8)
  rw [hbyte, Char.ofNat_toNat]

theorem ofText_eq_map_octet {s : String} (h : ∀ c ∈ s.toList, c.toNat < 128) :
    ofText s = s.toList.map octet := by
  have hlist := Text.Utf8.ofText_ascii h
  rwa [String.ofList_toList] at hlist

namespace Read

variable {α : Type} {rest : Bytes}

/-- To look at what is left takes nothing. -/
theorem run_bytes (bytes : Bytes) : (get : Read Bytes).run bytes = .ok (bytes, bytes) := rfl

section Characters

variable {c : Char} (hc : c.toNat < 128)

include hc

theorem run_next : next.run (octet c :: rest) = .ok (c, rest) := by
  have hrun : next.run (octet c :: rest) = .ok (Char.ofNat (octet c).toNat, rest) := rfl
  rw [hrun, ofNat_octet hc]

theorem run_peek? : peek?.run (octet c :: rest) = .ok (some c, octet c :: rest) := by
  have hrun : peek?.run (octet c :: rest) =
      .ok (some (Char.ofNat (octet c).toNat), octet c :: rest) := rfl
  rw [hrun, ofNat_octet hc]

theorem run_char : (char c).run (octet c :: rest) = .ok ((), rest) := by
  rw [char, run_bind_of_ok (run_next hc), if_neg (by simp)]
  rfl

/-- Where nothing is blank, nothing is passed over. -/
theorem run_skipBlank (hvisible : ' ' < c) :
    skipBlank.run (octet c :: rest) = .ok (some c, octet c :: rest) := by
  have hbyte : (octet c).toNat = c.toNat := Nat.mod_eq_of_lt (by omega : c.toNat < 2 ^ 8)
  have hlt : 32 < (octet c).toNat := hbyte ▸ hvisible
  have hblank : [0x20, 0x0A, 0x09, 0x0D].contains (octet c) = false := by
    rw [List.contains_eq_mem, decide_eq_false_iff_not]
    intro hmem
    simp only [List.mem_cons, List.not_mem_nil, or_false] at hmem
    rcases hmem with h | h | h | h <;> rw [h] at hlt <;> exact absurd hlt (by decide)
  have hdrop : (octet c :: rest).dropWhile (fun b => [0x20, 0x0A, 0x09, 0x0D].contains b) =
      octet c :: rest := List.dropWhile_cons_of_neg (Bool.eq_false_iff.mp hblank)
  have hrun : skipBlank.run (octet c :: rest) =
      peek?.run ((octet c :: rest).dropWhile fun b => [0x20, 0x0A, 0x09, 0x0D].contains b) := rfl
  rw [hrun, hdrop, run_peek? hc]

end Characters

section Texts

/-- Characters that stand for themselves are taken up to the closing quotation mark. -/
theorem run_textWithin {cs : List Char} (hcs : ∀ c ∈ cs, IsBare c) (reversed : List Bytes)
    {limit : Nat} (hlimit : cs.length < limit) :
    (textWithin reversed limit).run (cs.map octet ++ octet '"' :: rest) =
      .ok (reversed.reverse.flatten ++ cs.map octet, rest) := by
  induction cs generalizing reversed limit with
  | nil =>
    obtain ⟨limit, rfl⟩ := Nat.exists_eq_succ_of_ne_zero hlimit.ne'
    rw [List.map_nil, List.nil_append, textWithin, run_bind_of_ok (run_next (by decide)),
      if_pos rfl, List.append_nil]
    rfl
  | cons c cs ih =>
    have hpositive : 0 < limit := Nat.zero_lt_of_lt hlimit
    obtain ⟨limit, rfl⟩ := Nat.exists_eq_succ_of_ne_zero hpositive.ne'
    obtain ⟨hprint, hascii, hquote, hescape⟩ := hcs c List.mem_cons_self
    have hlow : ¬ c < ' ' := Char.not_lt.mpr hprint
    rw [List.map_cons, List.cons_append, textWithin, run_bind_of_ok (run_next hascii),
      if_neg hquote, if_neg hescape, if_neg hlow,
      ih (fun c' hc' => hcs c' (List.mem_cons_of_mem c hc')) _ (Nat.lt_of_succ_lt_succ hlimit)]
    simp [octet]

/-- A text of such characters is read back. -/
theorem run_text {name : String} (hname : ∀ c ∈ name.toList, IsBare c) :
    text.run (octet '"' :: (name.toList.map octet ++ octet '"' :: rest)) = .ok (name, rest) := by
  have hlimit : name.toList.length < (name.toList.map octet ++ octet '"' :: rest).length := by
    simp
  have hbytes : ofText name = name.toList.map octet :=
    ofText_eq_map_octet fun c hc => (hname c hc).2.1
  rw [text, run_bind_of_ok (run_char (by decide)), run_bind_of_ok (run_bytes _),
    run_bind_of_ok (run_textWithin hname [] hlimit), List.reverse_nil, List.flatten_nil,
    List.nil_append, ← hbytes, Text.Utf8.decode?_ofText]
  rfl

end Texts

section Numbers

/-- The octets of digits. -/
def digitOctets (ds : List Nat) : Bytes := ds.map fun d => octet (Nat.digitChar d)

theorem digitOctet_of_lt : ∀ d < 10,
    (0x30 ≤ octet (Nat.digitChar d) && octet (Nat.digitChar d) ≤ 0x39) = true ∧
      (octet (Nat.digitChar d)).toNat - 0x30 = d := by decide

/-- Digits are taken up to the end of the object. -/
theorem run_digits {ds : List Nat} (hds : ∀ d ∈ ds, d < 10) :
    digits.run (digitOctets ds ++ octet '\x7d' :: rest) = .ok (ds, octet '\x7d' :: rest) := by
  let isDigit (b : UInt8) : Bool := 0x30 ≤ b && b ≤ 0x39
  have hrun (bytes : Bytes) : digits.run bytes =
      .ok ((bytes.span isDigit).1.map fun b => b.toNat - 0x30, (bytes.span isDigit).2) := rfl
  have hall : ∀ b ∈ digitOctets ds, isDigit b = true := by
    intro b hb
    obtain ⟨d, hd, rfl⟩ := List.mem_map.mp hb
    exact (digitOctet_of_lt d (hds d hd)).1
  have hvalues : (digitOctets ds).map (fun b => b.toNat - 0x30) = ds := by
    rw [digitOctets, List.map_map]
    exact (List.map_congr_left fun d hd => (digitOctet_of_lt d (hds d hd)).2).trans (List.map_id ds)
  have hstop : ¬ isDigit (octet '\x7d') = true := by decide
  rw [hrun, List.span_eq_takeWhile_dropWhile, List.takeWhile_append_of_pos hall,
    List.dropWhile_append_of_pos hall, List.takeWhile_cons_of_neg hstop,
    List.dropWhile_cons_of_neg hstop, List.append_nil, hvalues]

/-- The digits of a number are those of an integer without leading zeros. -/
theorem run_wholeDigits {ds : List Nat} (hne : ds ≠ []) (hds : ∀ d ∈ ds, d < 10)
    (hzero : ds.head? = some 0 → ds = [0]) :
    wholeDigits.run (digitOctets ds ++ octet '\x7d' :: rest) = .ok (ds, octet '\x7d' :: rest) := by
  have hsome : someDigits.run (digitOctets ds ++ octet '\x7d' :: rest) =
      .ok (ds, octet '\x7d' :: rest) := by
    rw [someDigits, run_bind_of_ok (run_digits hds), if_neg (by simpa using hne)]
    rfl
  have hlone : ¬ (ds.head? = some 0 && 1 < ds.length) = true := by
    intro hfront
    rw [Bool.and_eq_true, decide_eq_true_eq, decide_eq_true_eq] at hfront
    rw [hzero hfront.1] at hfront
    exact absurd hfront.2 (by decide)
  rw [wholeDigits, run_bind_of_ok hsome, if_neg hlone]
  rfl

/-- The characters of an integer: a sign, if it is negative, and the digits of its magnitude. -/
theorem exists_toList_toString (v : Int) :
    ∃ ds, ds ≠ [] ∧ (∀ d ∈ ds, d < 10) ∧ (ds.head? = some 0 → ds = [0]) ∧
      Nat.toDigits 10 v.natAbs = ds.map Nat.digitChar ∧ Text.ofDigits 10 ds = v.natAbs ∧
      (toString v).toList = (if v < 0 then ['-'] else []) ++ ds.map Nat.digitChar := by
  obtain ⟨ds, hne, hds, hdigits, hvalue, hzero⟩ :=
    Text.exists_digits (by decide : 1 < 10) v.natAbs
  refine ⟨ds, hne, hds, hzero, hdigits, hvalue, ?_⟩
  rw [← hdigits]
  cases v with
  | ofNat n =>
    have htext : toString (Int.ofNat n) = Nat.repr n := rfl
    rw [htext, Nat.toList_repr]
    rfl
  | negSucc n =>
    have htext : toString (Int.negSucc n) = "-" ++ Nat.repr (n + 1) := rfl
    rw [htext, String.toList_append, Nat.toList_repr, if_pos (Int.negSucc_lt_zero n)]
    rfl

theorem isAscii_toString (v : Int) : ∀ c ∈ (toString v).toList, c.toNat < 128 := by
  have hdigit : ∀ d < 10, (Nat.digitChar d).toNat < 128 := by decide
  obtain ⟨ds, -, hds, -, -, -, htext⟩ := exists_toList_toString v
  intro c hc
  rw [htext] at hc
  rcases List.mem_append.mp hc with hc | hc
  · split at hc
    · rw [List.mem_singleton.mp hc]
      decide
    · cases hc
  · obtain ⟨d, hd, rfl⟩ := List.mem_map.mp hc
    exact hdigit d (hds d hd)

/-- What is not the digit of a fraction and no exponent ends a numeral. -/
theorem run_fraction : fraction.run (octet '\x7d' :: rest) = .ok (none, octet '\x7d' :: rest) := rfl

theorem run_exponent : exponent.run (octet '\x7d' :: rest) = .ok (none, octet '\x7d' :: rest) := rfl

/-- A number of some hundred digits is in the range of double precision. -/
theorem roundsToInfinity_eq_false {ds : List Nat} (h : ds.length < 300) :
    Text.roundsToInfinity ds 0 = false := by
  have hfew : (ds.dropWhile (· == 0)).length < 300 :=
    Nat.lt_of_le_of_lt (List.dropWhile_suffix _).length_le h
  have hsmall : ((ds.dropWhile (· == 0)).length : Int) + 0 < 300 := by omega
  have hfinite : ((ds.dropWhile (· == 0)).isEmpty ||
      decide (((ds.dropWhile (· == 0)).length : Int) + 0 < 300)) = true := by
    rw [decide_eq_true hsmall, Bool.or_true]
  rw [Text.roundsToInfinity, if_pos hfinite]

/-- An integer is read as the numeral that it is. -/
theorem run_numeral (v : Int) (rest : Bytes) :
    ∃ ds, Nat.toDigits 10 v.natAbs = ds.map Nat.digitChar ∧ Text.ofDigits 10 ds = v.natAbs ∧
      numeral.run (ofText (toString v) ++ octet '\x7d' :: rest) =
        .ok (⟨decide (v < 0), ds, none, none⟩, octet '\x7d' :: rest) := by
  obtain ⟨ds, hne, hds, hzero, hdigits, hvalue, htext⟩ := exists_toList_toString v
  refine ⟨ds, hdigits, hvalue, ?_⟩
  have hmagnitude (negative : Bool) :
      StateT.run (do
        let whole ← wholeDigits
        let fraction ← fraction
        let exponent ← exponent
        pure (⟨negative, whole, fraction, exponent⟩ : Numeral))
      (digitOctets ds ++ octet '\x7d' :: rest) =
        .ok (⟨negative, ds, none, none⟩, octet '\x7d' :: rest) := by
    rw [run_bind_of_ok (run_wholeDigits hne hds hzero), run_bind_of_ok run_fraction,
      run_bind_of_ok run_exponent]
    rfl
  have hoctets : (ds.map Nat.digitChar).map octet = digitOctets ds := List.map_map
  rw [ofText_eq_map_octet (isAscii_toString v), htext, List.map_append, hoctets, numeral]
  by_cases hnegative : v < 0
  · rw [if_pos hnegative, List.map_singleton, List.singleton_append, List.cons_append,
      run_bind_of_ok (run_peek? (by decide))]
    dsimp only
    rw [if_pos rfl, run_bind_of_ok (run_char (by decide)), hmagnitude]
    simp [hnegative]
  · obtain ⟨d, ds', rfl⟩ := List.exists_cons_of_ne_nil hne
    have hdigitChar : ∀ d < 10,
        (Nat.digitChar d).toNat < 128 ∧ some (Nat.digitChar d) ≠ some '-' := by decide
    obtain ⟨hascii, hsign⟩ := hdigitChar d (hds d List.mem_cons_self)
    have hpeek : peek?.run (digitOctets (d :: ds') ++ octet '\x7d' :: rest) =
        .ok (some (Nat.digitChar d), digitOctets (d :: ds') ++ octet '\x7d' :: rest) :=
      run_peek? hascii
    rw [if_neg hnegative, List.map_nil, List.nil_append, run_bind_of_ok hpeek]
    dsimp only
    rw [if_neg hsign, hmagnitude]
    simp [hnegative, hsign]

/-- What an integer begins with is not blank, and tells that it is a number. -/
theorem run_skipBlank_toString (v : Int) (rest : Bytes) :
    ∃ c, (decide (c = '-') || c.isDigit) = true ∧
      skipBlank.run (ofText (toString v) ++ rest) = .ok (some c, ofText (toString v) ++ rest) := by
  obtain ⟨ds, hne, hds, -, -, -, htext⟩ := exists_toList_toString v
  rw [ofText_eq_map_octet (isAscii_toString v), htext]
  by_cases hnegative : v < 0
  · rw [if_pos hnegative]
    exact ⟨'-', by decide, run_skipBlank (by decide) (by decide)⟩
  · obtain ⟨d, ds', rfl⟩ := List.exists_cons_of_ne_nil hne
    have hdigitChar : ∀ d < 10, (Nat.digitChar d).toNat < 128 ∧ ' ' < Nat.digitChar d ∧
        (decide (Nat.digitChar d = '-') || (Nat.digitChar d).isDigit) = true := by decide
    obtain ⟨hascii, hvisible, hdigit⟩ := hdigitChar d (hds d List.mem_cons_self)
    rw [if_neg hnegative]
    exact ⟨_, hdigit, run_skipBlank hascii hvisible⟩

theorem length_toDigits_le {n : Nat} (h : n < UInt64.size) : (Nat.toDigits 10 n).length ≤ 20 := by
  have hfew : n < 10 ^ 20 := Nat.lt_trans h (by decide)
  exact (Nat.length_toDigits_le_iff (by decide) (by decide)).mpr hfew

/-- An integer of 64 bits has at most twenty digits, and a sign. -/
theorem length_ofText_toString_le {v : Int} (hsize : v.natAbs < UInt64.size) :
    (ofText (toString v)).length ≤ 21 := by
  obtain ⟨ds, -, -, -, hdigits, -, htext⟩ := exists_toList_toString v
  have hcount := length_toDigits_le hsize
  have hsign : (if v < 0 then ['-'] else []).length ≤ 1 := by
    split <;> simp
  rw [ofText_eq_map_octet (isAscii_toString v), htext, ← hdigits, List.length_map,
    List.length_append]
  omega

/-- An integer between the bounds is taken, up to the end of the object. -/
theorem run_integer {least most v : Int} (hleast : least ≤ v) (hmost : v ≤ most)
    (hsize : v.natAbs < UInt64.size) :
    (integer least most).run (ofText (toString v) ++ octet '\x7d' :: rest) =
      .ok (v, octet '\x7d' :: rest) := by
  obtain ⟨c, hnumber, hblank⟩ := run_skipBlank_toString v (octet '\x7d' :: rest)
  obtain ⟨ds, hdigits, hvalue, hrun⟩ := run_numeral v rest
  have hlength : ds.length ≤ 20 := by
    have hcount := length_toDigits_le hsize
    rwa [hdigits, List.length_map] at hcount
  have hhuge : Numeral.isHuge ⟨decide (v < 0), ds, none, none⟩ = false := by
    have hwhole : Numeral.isHuge ⟨decide (v < 0), ds, none, none⟩ =
      Text.roundsToInfinity (ds ++ []) 0 := rfl
    rw [hwhole, List.append_nil, roundsToInfinity_eq_false (by omega)]
  have hinteger : Numeral.integer? ⟨decide (v < 0), ds, none, none⟩ = some v := by
    simp only [Numeral.integer?, hvalue, Option.isSome_none, Bool.false_or]
    by_cases hnegative : v < 0
    · have hmagnitude : ((v.natAbs : Nat) : Int) = -v := by omega
      simp [hnegative, hmagnitude]
      omega
    · have hmagnitude : ((v.natAbs : Nat) : Int) = v := by omega
      simp [hnegative, hmagnitude]
  rw [integer, run_bind_of_ok hblank]
  dsimp only
  rw [if_pos hnumber, run_bind_of_ok hrun, hhuge, if_neg Bool.false_ne_true, hinteger]
  dsimp only
  rw [if_pos (by simp [hleast, hmost])]
  rfl

end Numbers

section Objects

variable {name : String} {value : Read α} {a : α} {body : Bytes}

/-- Behind the field that is asked for, the object ends. -/
theorem run_membersWithin_end (limit : Nat) :
    (membersWithin name value (some a) false (limit + 1)).run (octet '\x7d' :: rest) =
      .ok (a, rest) := by
  rw [membersWithin, run_bind_of_ok (run_skipBlank (by decide) (by decide)), if_pos rfl,
    run_bind_of_ok (run_char (by decide))]
  rfl

variable (hname : ∀ c ∈ name.toList, IsBare c)

include hname

/-- The field that is asked for is the first one, and the last. -/
theorem run_membersWithin (hvalue : value.run body = .ok (a, octet '\x7d' :: rest)) (limit : Nat) :
    (membersWithin name value none true (limit + 2)).run
      (octet '"' :: (name.toList.map octet ++ octet '"' :: octet ':' :: body)) = .ok (a, rest) := by
  rw [membersWithin, run_bind_of_ok (run_skipBlank (by decide) (by decide)), if_neg (by decide)]
  dsimp only
  rw [if_neg (by decide), run_bind_of_ok (run_skipBlank (by decide) (by decide)),
    run_bind_of_ok (run_text hname), if_neg (by simp),
    run_bind_of_ok (run_skipBlank (by decide) (by decide)), run_bind_of_ok (run_char (by decide)),
    if_pos rfl, run_bind_of_ok hvalue, run_membersWithin_end]

theorem run_object (hvalue : value.run body = .ok (a, octet '\x7d' :: rest)) :
    (object name value).run (octet '\x7b' :: octet '"' ::
      (name.toList.map octet ++ octet '"' :: octet ':' :: body)) = .ok (a, rest) := by
  rw [object, run_bind_of_ok (run_skipBlank (by decide) (by decide))]
  change (char '\x7b' >>= fun _ => get >>= fun bytes : Bytes =>
    membersWithin name value none true (bytes.length + 1)).run _ = _
  rw [run_bind_of_ok (run_char (by decide)), run_bind_of_ok (run_bytes _), List.length_cons]
  exact run_membersWithin hname hvalue _

/-- The octets of an object of one integer. -/
theorem ofText_object (v : Int) :
    ofText (Value.object [(name, .number v)]).render =
      octet '\x7b' :: octet '"' :: (name.toList.map octet ++ octet '"' :: octet ':' ::
        (ofText (toString v) ++ [octet '\x7d'])) := by
  have hquote : ofText (Value.quote name) =
      octet '"' :: (name.toList.map octet ++ [octet '"']) := by
    have hescape : name.toList.flatMap Value.escape = name.toList :=
      (List.flatMap_congr fun c hc => escape_of_isBare (hname c hc)).trans
        (List.flatMap_singleton' _)
    have hascii : ∀ c ∈ '"' :: (name.toList ++ ['"']), c.toNat < 128 := by
      intro c hc
      rcases List.mem_cons.mp hc with rfl | hc
      · decide
      rcases List.mem_append.mp hc with hc | hc
      · exact (hname c hc).2.1
      · rw [List.mem_singleton.mp hc]
        decide
    rw [Value.quote, hescape, List.cons_append, Text.Utf8.ofText_ascii hascii, List.map_cons,
      List.map_append]
    rfl
  have hrender : (Value.object [(name, .number v)]).render =
      "\x7b" ++ (Value.quote name ++ ":" ++ toString v) ++ "\x7d" := rfl
  have hopen : ofText "\x7b" = [octet '\x7b'] := rfl
  have hcolon : ofText ":" = [octet ':'] := rfl
  have hclose : ofText "\x7d" = [octet '\x7d'] := rfl
  rw [hrender]
  simp only [Text.Utf8.ofText_append, hquote, hopen, hcolon, hclose, List.append_assoc,
    List.cons_append, List.nil_append]

theorem length_ofText_object_le {v : Int} (hsize : v.natAbs < UInt64.size) :
    (ofText (Value.object [(name, .number v)]).render).length ≤ name.toList.length + 26 := by
  have hnumber := length_ofText_toString_le hsize
  rw [ofText_object hname]
  simp only [List.length_cons, List.length_append, List.length_map, List.length_nil]
  omega

/-- An object of one integer is read back. -/
theorem whole_object {least most v : Int} (hleast : least ≤ v) (hmost : v ≤ most)
    (hsize : v.natAbs < UInt64.size) :
    (object name (integer least most)).whole (ofText (Value.object [(name, .number v)]).render) =
      .ok v := by
  have hinteger : (integer least most).run (ofText (toString v) ++ [octet '\x7d']) =
      .ok (v, [octet '\x7d']) := run_integer hleast hmost hsize
  rw [whole, ofText_object hname, run_object hname hinteger]
  rfl

end Objects

end Read

end HttpRelay.Json
