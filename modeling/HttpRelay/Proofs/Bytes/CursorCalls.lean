import HttpRelay.Proofs.Bytes.CursorReads

/-!
# Cursor calls in any order

A cursor may be asked for anything, and asked on after a call has failed. A length-prefixed read
that fails halfway has moved past its length, so that a failed call need not leave the cursor where
it was; it never leaves it behind that place, nor past the end.

* `Call`, `Cursor.ask`, `Cursor.after`: the calls of a cursor, one of them, and any number of them;
* `Onward`: a cursor further on in the same input;
* `Covers`: a byte string is what the input holds just in front of a cursor;
* `Advances`: what a read does to a cursor, with a rule for each way to build one;
* `advances_call`, `answered_of_ask`, `lacks_of_ask`: what becomes of a call;
* `onward_after`: all calls together go on.
-/

namespace HttpRelay

/-- Which octet of a number comes first. -/
inductive Word.Order where
  /-- The most significant one. -/
  | big
  /-- The least significant one. -/
  | little
  deriving DecidableEq, Repr

namespace Word.Order

/-- The `width` low octets of `n`. -/
def write : Order → (width n : Nat) → Bytes
  | big => be
  | little => le

/-- The number that octets spell. -/
def value : Order → Bytes → Nat
  | big => ofBe
  | little => ofLe

/-- Reading what was written gives the number modulo the width. -/
theorem value_write (order : Order) (width n : Nat) :
    order.value (order.write width n) = n % 1 <<< (8 * width) := by
  cases order with
  | big => exact ofBe_be width n
  | little => exact ofLe_le width n

@[simp] theorem length_write (order : Order) (width n : Nat) :
    (order.write width n).length = width := by
  cases order with
  | big => exact length_be width n
  | little => exact length_le width n

end Word.Order

namespace Cursor

open Bytes Outcome

variable {α β : Type} {c c' c'' : Cursor} {content : Bytes}

/-- Something that a cursor is asked for and that may move it. To look at the cursor does not. -/
inductive Call where
  | bytes (count : Nat)
  | skip (count : Nat)
  | octet
  | number (order : Word.Order) (width : Nat)
  /-- A byte string behind its length of some octets. -/
  | vector (width : Nat)
  deriving DecidableEq, Repr

/-- What a call gives. -/
inductive Answer where
  | bytes (content : Bytes)
  | nothing
  | number (n : Nat)
  deriving DecidableEq, Repr

/-- The read of a number. -/
def number : Word.Order → (width : Nat) → Read UnexpectedEnd Nat
  | .big => be
  | .little => le

/-- The read of a call. -/
def Call.read : Call → Read UnexpectedEnd Answer
  | bytes count => do return .bytes (← Cursor.bytes count)
  | skip count => do
    Cursor.skip count
    return .nothing
  | octet => do return .number (← Cursor.octet).toNat
  | number order width => do return .number (← Cursor.number order width)
  | vector width => do return .bytes (← Cursor.vector width)

/-- The answer to a call, and the cursor behind it. -/
def ask (c : Cursor) (call : Call) : Except UnexpectedEnd Answer × Cursor := c.run call.read

/-- The cursor behind some calls, whether they failed or not. -/
def after (c : Cursor) (calls : List Call) : Cursor :=
  calls.foldl (fun c call => (c.ask call).2) c

/-- The answers to some calls. -/
def answers (c : Cursor) : List Call → List (Except UnexpectedEnd Answer)
  | [] => []
  | call :: calls => (c.ask call).1 :: (c.ask call).2.answers calls

@[simp] theorem after_nil (c : Cursor) : c.after [] = c := rfl

@[simp] theorem after_cons (c : Cursor) (call : Call) (calls : List Call) :
    c.after (call :: calls) = (c.ask call).2.after calls := rfl

/-! ### What a read does to a cursor -/

/-- A cursor further on in the same input. -/
structure Onward (c c' : Cursor) : Prop where
  input_eq : c'.input = c.input
  position_le : c.position ≤ c'.position

theorem Onward.refl (c : Cursor) : c.Onward c := ⟨rfl, Nat.le_refl _⟩

theorem Onward.trans (h : c.Onward c') (h' : c'.Onward c'') : c.Onward c'' :=
  ⟨h'.input_eq.trans h.input_eq, Nat.le_trans h.position_le h'.position_le⟩

/-- The octets of an input from one position up to another. -/
def slice (input : Bytes) (first last : Nat) : Bytes := (input.take last).drop first

/-- A byte string is what the input holds just in front of a cursor, and none of it was read
already by a cursor before. -/
structure Covers (c c' : Cursor) (content : Bytes) : Prop where
  fresh : c.position + content.length ≤ c'.position
  slice_eq : slice c.input (c'.position - content.length) c'.position = content

theorem Covers.of_onward (h : c.Onward c') (hcontent : c'.Covers c'' content) :
    c.Covers c'' content :=
  ⟨Nat.le_trans (Nat.add_le_add_right h.position_le _) hcontent.fresh,
    h.input_eq ▸ hcontent.slice_eq⟩

/-- A failed call asked for more than is left where the cursor stopped. -/
def Lacks (c : Cursor) (e : UnexpectedEnd) : Prop :=
  e.remaining = c.remaining ∧ c.remaining < e.needed

/-- A read that goes on in its input, whatever it comes to, with what its value has to do with the
cursors in front of it and behind it. -/
structure Advances (read : Read UnexpectedEnd α) (P : Cursor → Cursor → α → Prop) : Prop where
  onward : ∀ c : Cursor, c.Onward (c.run read).2
  value : ∀ (c : Cursor) (a : α), (c.run read).1 = .ok a → P c (c.run read).2 a
  failure : ∀ (c : Cursor) (e : UnexpectedEnd), (c.run read).1 = .error e → (c.run read).2.Lacks e

section Rules

variable {read : Read UnexpectedEnd α} {next : α → Read UnexpectedEnd β}
  {P : Cursor → Cursor → α → Prop} {Q : α → Cursor → Cursor → β → Prop}

theorem advances_pure (a : α) :
    Advances (pure a) fun c c' value => c' = c ∧ value = a where
  onward := Onward.refl
  value _ _ h := ⟨rfl, (Except.ok.inj h).symm⟩
  failure _ _ h := nomatch h

/-- The second of two reads goes on from where the first one stopped. -/
theorem Advances.bind (hread : Advances read P) (hnext : ∀ a, Advances (next a) (Q a)) :
    Advances (read >>= next) fun c c'' b =>
      ∃ a c', c.Onward c' ∧ P c c' a ∧ Q a c' c'' b := by
  have hrun (c : Cursor) :
      (∃ e, (c.run read).1 = .error e ∧ c.run (read >>= next) = (.error e, (c.run read).2)) ∨
        ∃ a, (c.run read).1 = .ok a ∧
          c.run (read >>= next) = (c.run read).2.run (next a) := by
    rcases hfirst : c.run read with ⟨e | a, c'⟩
    · exact .inl ⟨e, rfl, run_bind_error hfirst⟩
    · exact .inr ⟨a, rfl, run_bind_ok hfirst⟩
  constructor
  case onward =>
    intro c
    rcases hrun c with ⟨e, -, hboth⟩ | ⟨a, -, hboth⟩ <;> rw [hboth]
    · exact hread.onward c
    · exact (hread.onward c).trans ((hnext a).onward _)
  case value =>
    intro c b hb
    rcases hrun c with ⟨e, -, hboth⟩ | ⟨a, ha, hboth⟩ <;> rw [hboth] at hb ⊢
    · cases hb
    · exact ⟨a, _, hread.onward c, hread.value c a ha, (hnext a).value _ b hb⟩
  case failure =>
    intro c e he
    rcases hrun c with ⟨e', he', hboth⟩ | ⟨a, -, hboth⟩ <;> rw [hboth] at he ⊢
    · obtain rfl := Except.error.inj he
      exact hread.failure c e' he'
    · exact (hnext a).failure _ e he

theorem Advances.mono {P' : Cursor → Cursor → α → Prop} (h : Advances read P)
    (himp : ∀ c c' a, P c c' a → P' c c' a) : Advances read P' :=
  ⟨h.onward, fun c a ha => himp _ _ _ (h.value c a ha), h.failure⟩

/-- What is made of a value leaves the cursor alone. -/
theorem Advances.map {P' : Cursor → Cursor → β → Prop} (h : Advances read P) (f : α → β)
    (himp : ∀ c c' a, P c c' a → P' c c' (f a)) :
    Advances (read >>= fun a => pure (f a)) P' := by
  refine (h.bind fun a => advances_pure (f a)).mono ?_
  rintro c c' b ⟨a, middle, -, ha, rfl, rfl⟩
  exact himp c c' a ha

end Rules

/-! ### Primitive reads -/

theorem advances_bytes (n : Nat) :
    Advances (bytes n) fun c c' content => content.length = n ∧ c.Covers c' content := by
  have hrun (c : Cursor) : c.run (bytes n) = c.take n := rfl
  constructor
  case onward =>
    intro c
    rw [hrun, take]
    split
    · exact ⟨rfl, Nat.le_add_right _ _⟩
    · exact Onward.refl c
  case value =>
    intro c content hcontent
    rw [hrun, take] at hcontent ⊢
    split at hcontent
    next hfits =>
      rw [dif_pos hfits]
      obtain rfl := Except.ok.inj hcontent
      have hlength : (c.rest.take n).length = n := by
        rw [List.length_take, ← remaining_eq, Nat.min_eq_left hfits]
      refine ⟨hlength, Nat.le_of_eq (congrArg (c.position + ·) hlength), ?_⟩
      rw [hlength, slice, Nat.add_sub_cancel, rest, List.drop_take, Nat.add_sub_cancel_left]
    next => cases hcontent
  case failure =>
    intro c e he
    rw [hrun, take] at he ⊢
    split at he
    next => cases he
    next hshort =>
      rw [dif_neg hshort]
      obtain rfl := Except.error.inj he
      exact ⟨rfl, Nat.lt_of_not_le hshort⟩

theorem advances_skip (n : Nat) :
    Advances (skip n) fun c c' _ => ∃ content, content.length = n ∧ c.Covers c' content :=
  (advances_bytes n).map (fun _ => ()) fun _ _ content h => ⟨content, h⟩

theorem advances_octet : Advances octet fun c c' b => c.Covers c' [b] := by
  refine (advances_bytes 1).map _ fun c c' content ⟨hlength, hcontent⟩ => ?_
  obtain ⟨b, rfl⟩ := List.length_eq_one_iff.mp hlength
  exact hcontent

/-- A number is spelled by the octets just in front of the cursor. -/
def Spelled (order : Word.Order) (width : Nat) (c c' : Cursor) (n : Nat) : Prop :=
  ∃ content, content.length = width ∧ order.value content = n ∧ c.Covers c' content

theorem advances_number (order : Word.Order) (width : Nat) :
    Advances (number order width) (Spelled order width) := by
  cases order with
  | big => exact (advances_bytes width).map _ fun _ _ content h => ⟨content, h.1, rfl, h.2⟩
  | little => exact (advances_bytes width).map _ fun _ _ content h => ⟨content, h.1, rfl, h.2⟩

theorem advances_vector (width : Nat) :
    Advances (vector width) fun c c' content => c.Covers c' content := by
  refine ((advances_number .big width).bind fun n => advances_bytes n).mono ?_
  rintro c c' content ⟨n, middle, honward, -, -, hcontent⟩
  exact hcontent.of_onward honward

/-! ### Calls -/

/-- The answer to a call is in the input, just in front of where the cursor stopped. -/
def Call.Answered (c c' : Cursor) : Call → Answer → Prop
  | .bytes count, .bytes content => content.length = count ∧ c.Covers c' content
  | .skip count, .nothing => ∃ content, content.length = count ∧ c.Covers c' content
  | .octet, .number n => Spelled .big 1 c c' n
  | .number order width, .number n => Spelled order width c c' n
  | .vector _, .bytes content => c.Covers c' content
  | _, _ => False

/-- Whatever a cursor is asked for, it goes on in its input. -/
theorem advances_call (call : Call) : Advances call.read fun c c' => call.Answered c c' := by
  cases call with
  | bytes count => exact (advances_bytes count).map _ fun _ _ _ h => h
  | skip count => exact (advances_skip count).map _ fun _ _ _ h => h
  | octet =>
    refine advances_octet.map _ fun c c' b h => ⟨[b], rfl, ?_, h⟩
    simp [Word.Order.value, Word.ofBe, Word.ofLe]
  | number order width => exact (advances_number order width).map _ fun _ _ _ h => h
  | vector width => exact (advances_vector width).map _ fun _ _ _ h => h

theorem answered_of_ask {call : Call} {answer : Answer} (hask : c.ask call = (.ok answer, c')) :
    call.Answered c c' answer := by
  have hanswered := (advances_call call).value c answer (congrArg Prod.fst hask)
  have hbehind : (c.run call.read).2 = c' := congrArg Prod.snd hask
  rwa [hbehind] at hanswered

theorem lacks_of_ask {call : Call} {e : UnexpectedEnd} (hask : c.ask call = (.error e, c')) :
    c'.Lacks e := by
  have hlacks := (advances_call call).failure c e (congrArg Prod.fst hask)
  have hbehind : (c.run call.read).2 = c' := congrArg Prod.snd hask
  rwa [hbehind] at hlacks

-- the length is passed, although fewer bytes follow than it tells
example : ((ofBytes [0x00, 0x05, 0x61]).ask (.vector 2)).1 = .error ⟨5, 1⟩ ∧
    ((ofBytes [0x00, 0x05, 0x61]).ask (.vector 2)).2.position = 2 := ⟨rfl, rfl⟩

/-- However often a cursor is asked, it goes on in its input. -/
theorem onward_after (c : Cursor) (calls : List Call) : c.Onward (c.after calls) := by
  induction calls generalizing c with
  | nil => exact Onward.refl c
  | cons call calls ih => exact ((advances_call call).onward c).trans (ih _)

end Cursor

end HttpRelay
