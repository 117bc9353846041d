import HttpRelay.Bytes.Cursor
import HttpRelay.Proofs.Outcome

/-!
# What a cursor read accepts

A read is described by the bytes that it accepts and by what they mean to it. Two descriptions are
kept apart, since a read may or may not look at where its input ends.

* `Bytes.IsVector`, `Bytes.IsSequence`: a length-prefixed byte string, and items in a row;
* `Cursor.Parses`: a read of a front of the unread bytes;
* `Cursor.Fills`: a read of all of the unread bytes;
* `Parses.bind`, `Parses.fills_bind`, `fills_many`: how the descriptions are put together.
-/

namespace HttpRelay

namespace Bytes

variable {α : Type} {width : Nat} {content content' bytes extra : Bytes}

/-- A byte string behind its length of some octets. -/
def IsVector (width : Nat) (content bytes : Bytes) : Prop :=
  content.length < 1 <<< (8 * width) ∧ bytes = Word.be width content.length ++ content

/-- A length and as many bytes as it tells are a vector. -/
theorem isVector_append {length : Bytes} (hwidth : length.length = width)
    (hvalue : Word.ofBe length = content.length) : IsVector width content (length ++ content) := by
  subst hwidth
  rw [IsVector, ← hvalue, Word.be_ofBe]
  exact ⟨Word.ofBe_lt length, rfl⟩

theorem IsVector.ne_nil (h : IsVector width content bytes) (hwidth : 0 < width) : bytes ≠ [] := by
  rintro rfl
  have hlength := congrArg List.length h.2
  rw [List.length_append, Word.length_be, List.length_nil] at hlength
  omega

/-- A vector is the only one that begins like it. -/
theorem IsVector.eq_nil_of_append (h : IsVector width content bytes)
    (h' : IsVector width content' (bytes ++ extra)) : extra = [] := by
  obtain ⟨hsize, rfl⟩ := h
  obtain ⟨hsize', hsame⟩ := h'
  rw [List.append_assoc] at hsame
  -- the lengths in front are the same octets, and spell the same number
  obtain ⟨hlength, hcontent⟩ := List.append_inj hsame (by simp)
  have hcount : content.length = content'.length := by
    rw [← Word.ofBe_be_of_lt hsize, hlength, Word.ofBe_be_of_lt hsize']
  have hextra := congrArg List.length hcontent
  rw [List.length_append] at hextra
  exact List.length_eq_zero_iff.mp (by omega)

/-- One item after another. -/
inductive IsSequence (item : α → Bytes → Prop) : List α → Bytes → Prop
  | nil : IsSequence item [] []
  | cons {a : α} {as : List α} {front back : Bytes} (first : item a front)
      (rest : IsSequence item as back) : IsSequence item (a :: as) (front ++ back)

end Bytes

namespace Cursor

open Bytes Outcome

variable {ε ε' α β : Type} {c c' : Cursor}

theorem remaining_eq (c : Cursor) : c.remaining = c.rest.length := by
  rw [remaining, rest, List.length_drop]

theorem isEmpty_eq (c : Cursor) : c.isEmpty = decide (c.rest = []) := by
  rw [isEmpty, remaining_eq, Bool.eq_iff_iff]
  simp

/-- A read that accepts a front of the unread bytes and takes it. -/
def Parses (read : Read ε α) (P : α → Bytes → Prop) : Prop :=
  ∀ (c : Cursor) (a : α) (rest : Bytes),
    (∃ c', c.run read = (.ok a, c') ∧ c'.rest = rest) ↔ ∃ front, c.rest = front ++ rest ∧ P a front

/-- A read that accepts all of the unread bytes. -/
def Fills (read : Read ε α) (P : α → Bytes → Prop) : Prop :=
  ∀ (c : Cursor) (a : α), (c.run read).1 = .ok a ↔ P a c.rest

section Descriptions

variable {read : Read ε α} {next : α → Read ε β} {P P' : α → Bytes → Prop}
  {Q : α → β → Bytes → Prop}

/-- What is known of a read that gave a value. -/
theorem Parses.of_run (h : Parses read P) {a : α} (hrun : c.run read = (.ok a, c')) :
    ∃ front, c.rest = front ++ c'.rest ∧ P a front :=
  (h c a c'.rest).mp ⟨c', hrun, rfl⟩

/-- A read gives the value that its bytes mean. -/
theorem Parses.exists_run (h : Parses read P) {a : α} {front rest : Bytes}
    (hrest : c.rest = front ++ rest) (hfront : P a front) :
    ∃ c', c.run read = (.ok a, c') ∧ c'.rest = rest :=
  (h c a rest).mpr ⟨front, hrest, hfront⟩

theorem Parses.congr (h : Parses read P) (hiff : ∀ a bytes, P a bytes ↔ P' a bytes) :
    Parses read P' := by
  intro c a rest
  rw [h c a rest]
  simp only [hiff]

theorem Fills.congr (h : Fills read P) (hiff : ∀ a bytes, P a bytes ↔ P' a bytes) :
    Fills read P' :=
  fun c a => (h c a).trans (hiff a c.rest)

theorem parses_pure (a : α) :
    Parses (pure a : Read ε α) fun value bytes => value = a ∧ bytes = [] := by
  intro c value rest
  constructor
  · rintro ⟨c', hrun, rfl⟩
    obtain ⟨hvalue, rfl⟩ := Prod.mk.inj hrun
    exact ⟨[], rfl, (Except.ok.inj hvalue).symm, rfl⟩
  · rintro ⟨front, hrest, rfl, rfl⟩
    exact ⟨c, rfl, hrest⟩

theorem fills_pure (a : α) : Fills (pure a : Read ε α) fun value _ => value = a := by
  intro c value
  exact ⟨fun hrun => (Except.ok.inj hrun).symm, fun hvalue => congrArg Except.ok hvalue.symm⟩

theorem fills_throw (error : ε) : Fills (throw error : Read ε α) fun _ _ => False :=
  fun _ _ => ⟨fun hrun => (nomatch hrun), False.elim⟩

/-- Two reads in a row accept two byte strings in a row. -/
theorem Parses.bind (hread : Parses read P) (hnext : ∀ a, Parses (next a) (Q a)) :
    Parses (read >>= next) fun b bytes =>
      ∃ a first second, bytes = first ++ second ∧ P a first ∧ Q a b second := by
  intro c b rest
  constructor
  · rintro ⟨c', hrun, rfl⟩
    rw [run] at hrun
    rcases hfirst : c.run read with ⟨error | a, middle⟩
    · rw [run_bind_error hfirst] at hrun
      cases (Prod.mk.inj hrun).1
    · rw [run_bind_ok hfirst] at hrun
      obtain ⟨first, hrest, ha⟩ := hread.of_run hfirst
      obtain ⟨second, hrest', hb⟩ := (hnext a).of_run hrun
      exact ⟨first ++ second, by rw [hrest, hrest', List.append_assoc], a, first, second, rfl, ha,
        hb⟩
  · rintro ⟨bytes, hrest, a, first, second, rfl, ha, hb⟩
    rw [List.append_assoc] at hrest
    obtain ⟨middle, hfirst, hmiddle⟩ := hread.exists_run hrest ha
    obtain ⟨c', hsecond, hc'⟩ := (hnext a).exists_run hmiddle hb
    exact ⟨c', (run_bind_ok hfirst).trans hsecond, hc'⟩

/-- The second of two reads may accept all that the first one leaves. -/
theorem Parses.fills_bind (hread : Parses read P) (hnext : ∀ a, Fills (next a) (Q a)) :
    Fills (read >>= next) fun b bytes =>
      ∃ a first second, bytes = first ++ second ∧ P a first ∧ Q a b second := by
  intro c b
  constructor
  · intro hrun
    rw [run] at hrun
    rcases hfirst : c.run read with ⟨error | a, middle⟩
    · rw [run_bind_error hfirst] at hrun
      cases hrun
    · rw [run_bind_ok hfirst] at hrun
      obtain ⟨first, hrest, ha⟩ := hread.of_run hfirst
      exact ⟨a, first, middle.rest, hrest, ha, (hnext a middle b).mp hrun⟩
  · rintro ⟨a, first, second, hrest, ha, hb⟩
    obtain ⟨middle, hfirst, rfl⟩ := hread.exists_run hrest ha
    rw [run, run_bind_ok hfirst]
    exact (hnext a middle b).mpr hb

/-- A value is made of what a read accepted. -/
theorem Fills.map (h : Fills read P) (f : α → β) :
    Fills (read >>= fun a => pure (f a)) fun b bytes => ∃ a, P a bytes ∧ b = f a := by
  intro c b
  rw [run]
  rcases hfirst : c.run read with ⟨error | a, middle⟩
  · rw [run_bind_error hfirst]
    refine ⟨fun hrun => (nomatch hrun), fun ⟨a, ha, _⟩ => ?_⟩
    have hrun := (h c a).mpr ha
    rw [hfirst] at hrun
    cases hrun
  · rw [run_bind_ok hfirst]
    have ha := (h c a).mp (by rw [hfirst])
    constructor
    · intro hrun
      exact ⟨a, ha, (Except.ok.inj hrun).symm⟩
    · rintro ⟨a', ha', rfl⟩
      have hrun := (h c a').mpr ha'
      rw [hfirst] at hrun
      obtain rfl := Except.ok.inj hrun
      rfl

/-- A read behind a test. -/
theorem Parses.guard (h : Parses read P) {p : Prop} [Decidable p] (error : ε)
    (rest : β → Read ε α) :
    Parses (if p then (throw error : Read ε β) >>= rest else read) fun a bytes =>
      ¬ p ∧ P a bytes := by
  split
  next hp =>
    intro c a rest
    refine ⟨fun ⟨c', hrun, _⟩ => ?_, fun ⟨front, _, hp', _⟩ => absurd hp hp'⟩
    cases (Prod.mk.inj hrun).1
  next hp => exact h.congr fun a bytes => (and_iff_right hp).symm

theorem Fills.guard (h : Fills read P) {p : Prop} [Decidable p] (error : ε)
    (rest : β → Read ε α) :
    Fills (if p then (throw error : Read ε β) >>= rest else read) fun a bytes =>
      ¬ p ∧ P a bytes := by
  split
  next hp =>
    intro c a
    exact ⟨fun hrun => (nomatch hrun), fun ⟨hp', _⟩ => absurd hp hp'⟩
  next hp => exact h.congr fun a bytes => (and_iff_right hp).symm

/-- The run of a read with its failures put into another error type. -/
theorem run_orFail (read : Read ε α) (f : ε → ε') (c : Cursor) :
    c.run (orFail read f) = ((c.run read).1.mapError f, (c.run read).2) := by
  rw [run, orFail, ExceptT.run_mk, StateT.run_bind]
  rcases hrun : c.run read with ⟨error | a, c'⟩
  · rw [run] at hrun
    rw [hrun]
    rfl
  · rw [run] at hrun
    rw [hrun]
    rfl

/-- Other errors change nothing. -/
theorem Parses.orFail (h : Parses read P) (f : ε → ε') : Parses (orFail read f) P := by
  intro c a rest
  rw [← h c a rest, run_orFail]
  rcases c.run read with ⟨error | a', c'⟩
  · constructor <;> rintro ⟨c', hrun, -⟩ <;> cases (Prod.mk.inj hrun).1
  · have hiff (c₂ : Cursor) :
        (((.ok a', c') : Except ε' α × Cursor) = (.ok a, c₂)) ↔
          (((.ok a', c') : Except ε α × Cursor) = (.ok a, c₂)) := by simp
    exact exists_congr fun c₂ => and_congr_left' (hiff c₂)

/-- A read that first looks how much is left. -/
theorem fills_left_bind {next : Nat → Read ε β} {Q : Nat → β → Bytes → Prop}
    (hnext : ∀ n, Fills (next n) (Q n)) :
    Fills (left >>= next) fun b bytes => Q bytes.length b bytes := by
  intro c b
  have hleft : (left : Read ε Nat).run.run c = (.ok c.rest.length, c) := by
    rw [← remaining_eq]
    rfl
  rw [run, run_bind_ok hleft]
  exact hnext _ c b

/-- A read that first looks whether anything is left. -/
theorem fills_atEnd_bind {next : Bool → Read ε α} (hend : Fills (next true) P)
    (hmore : Fills (next false) P') :
    Fills (atEnd >>= next) fun a bytes => bytes = [] ∧ P a bytes ∨ bytes ≠ [] ∧ P' a bytes := by
  intro c a
  have hrun : (atEnd : Read ε Bool).run.run c = (.ok (decide (c.rest = [])), c) := by
    rw [← isEmpty_eq]
    rfl
  rw [run, run_bind_ok hrun]
  by_cases hnone : c.rest = []
  · rw [decide_eq_true hnone]
    exact (hend c a).trans (by simp [hnone])
  · rw [decide_eq_false hnone]
    exact (hmore c a).trans (by simp [hnone])

/-- Items that take some bytes each are read up to the end. -/
theorem manyFrom_iff (hread : Parses read P) (hsome : ∀ a, ¬ P a []) (done as : List α) :
    (manyFrom read done c).1 = .ok as ↔
      ∃ more, as = done.reverse ++ more ∧ IsSequence P more c.rest := by
  -- each item leaves less of the input
  induction hsize : c.remaining using Nat.strongRecOn generalizing c done with
  | ind size ih =>
    subst hsize
    rw [manyFrom, isEmpty_eq]
    by_cases hend : c.rest = []
    · rw [if_pos (by simpa using hend), hend]
      constructor
      · intro hdone
        exact ⟨[], by rw [List.append_nil, Except.ok.inj hdone], .nil⟩
      · rintro ⟨more, rfl, hmore⟩
        generalize hnil : ([] : Bytes) = bytes at hmore
        cases hmore with
        | nil => rw [List.append_nil]
        | @cons a as front back first rest =>
          obtain ⟨rfl, -⟩ := List.append_eq_nil_iff.mp hnil.symm
          exact absurd first (hsome a)
    rw [if_neg (by simpa using hend)]
    rcases hitem : c.run read with ⟨error | a, c'⟩
    · refine ⟨fun hrun => (nomatch hrun), fun ⟨more, _, hmore⟩ => ?_⟩
      generalize hbytes : c.rest = bytes at hmore
      cases hmore with
      | nil => exact absurd hbytes hend
      | cons first rest =>
        -- an item that the bytes begin with would have been read
        obtain ⟨c₂, hrun, -⟩ := hread.exists_run hbytes first
        rw [hitem] at hrun
        cases (Prod.mk.inj hrun).1
    · obtain ⟨front, hrest, ha⟩ := hread.of_run hitem
      have hfront : front ≠ [] := by
        rintro rfl
        exact hsome a ha
      have hshorter : c'.remaining < c.remaining := by
        have hpos := List.length_pos_iff.mpr hfront
        rw [remaining_eq, remaining_eq, hrest, List.length_append]
        omega
      simp only [dif_pos hshorter]
      rw [ih _ hshorter (a :: done) rfl]
      constructor
      · rintro ⟨more, rfl, hmore⟩
        refine ⟨a :: more, by simp, ?_⟩
        rw [hrest]
        exact .cons ha hmore
      · rintro ⟨more, rfl, hmore⟩
        generalize hbytes : c.rest = bytes at hmore
        cases hmore with
        | nil => exact absurd hbytes hend
        | @cons a₂ as front₂ back first rest =>
          -- the first item is the one that was read
          obtain ⟨c₂, hrun, rfl⟩ := hread.exists_run hbytes first
          rw [hitem] at hrun
          obtain ⟨hsame, rfl⟩ := Prod.mk.inj hrun
          obtain rfl := Except.ok.inj hsame
          exact ⟨as, by simp, rest⟩

theorem fills_many (hread : Parses read P) (hsome : ∀ a, ¬ P a []) :
    Fills (many read) (IsSequence P) := by
  intro c as
  have hrun : c.run (many read) = manyFrom read [] c := rfl
  rw [hrun, manyFrom_iff hread hsome]
  simp

end Descriptions

/-! ### Primitive reads -/

theorem parses_bytes (n : Nat) :
    Parses (bytes n) fun taken front => front = taken ∧ taken.length = n := by
  intro c taken rest
  have hrun : c.run (bytes n) = c.take n := rfl
  rw [hrun, take]
  split
  next hle =>
    rw [remaining_eq] at hle
    constructor
    · rintro ⟨c', hsame, rfl⟩
      obtain ⟨htaken, rfl⟩ := Prod.mk.inj hsame
      obtain rfl := Except.ok.inj htaken
      refine ⟨_, ?_, rfl, by rw [List.length_take]; omega⟩
      rw [Cursor.rest, Cursor.rest, ← List.drop_drop, List.take_append_drop]
    · rintro ⟨front, hrest, rfl, rfl⟩
      refine ⟨_, congrArg (fun taken => (Except.ok taken, _)) ?_, ?_⟩
      · rw [hrest, List.take_left]
      · rw [Cursor.rest, ← List.drop_drop, ← Cursor.rest, hrest, List.drop_left]
  next hshort =>
    rw [remaining_eq] at hshort
    constructor
    · rintro ⟨c', hsame, -⟩
      cases (Prod.mk.inj hsame).1
    · rintro ⟨front, hrest, rfl, rfl⟩
      rw [hrest, List.length_append] at hshort
      omega

theorem parses_skip (n : Nat) : Parses (skip n) fun _ front => front.length = n := by
  refine ((parses_bytes n).bind fun taken => parses_pure ()).congr fun a bytes => ?_
  constructor
  · rintro ⟨taken, first, second, rfl, ⟨rfl, rfl⟩, rfl, rfl⟩
    rw [List.append_nil]
  · intro hlength
    exact ⟨bytes, bytes, [], by simp, ⟨rfl, hlength⟩, rfl, rfl⟩

theorem parses_octet : Parses octet fun b front => front = [b] := by
  refine ((parses_bytes 1).bind fun taken => parses_pure _).congr fun b bytes => ?_
  constructor
  · rintro ⟨taken, first, second, rfl, ⟨rfl, hlength⟩, rfl, rfl⟩
    obtain ⟨b, rfl⟩ := List.length_eq_one_iff.mp hlength
    rfl
  · rintro rfl
    exact ⟨[b], [b], [], rfl, ⟨rfl, rfl⟩, rfl, rfl⟩

theorem parses_be (width : Nat) :
    Parses (be width) fun n front => front.length = width ∧ Word.ofBe front = n := by
  refine ((parses_bytes width).bind fun taken => parses_pure _).congr fun n bytes => ?_
  constructor
  · rintro ⟨taken, first, second, rfl, ⟨rfl, rfl⟩, rfl, rfl⟩
    simp
  · rintro ⟨hlength, rfl⟩
    exact ⟨bytes, bytes, [], by simp, ⟨rfl, hlength⟩, rfl, rfl⟩

theorem parses_vector (width : Nat) : Parses (vector width) (IsVector width) := by
  refine ((parses_be width).bind fun n => parses_bytes n).congr fun content bytes => ?_
  constructor
  · rintro ⟨n, first, second, rfl, ⟨hwidth, rfl⟩, rfl, hlength⟩
    exact isVector_append hwidth hlength.symm
  · rintro ⟨hsize, rfl⟩
    exact ⟨content.length, _, content, rfl, ⟨Word.length_be _ _, Word.ofBe_be_of_lt hsize⟩, rfl,
      rfl⟩

end Cursor

end HttpRelay
