import HttpRelay.Proofs.Bytes.CursorCalls

/-!
# Items written and read back

Numbers of fixed width in either order and length-prefixed byte strings, one behind the other. What
tells them apart is not written: a cursor reads them back if it is asked for the same kinds of items
in the same order.

* `Item.write`, `Item.call`: how an item is written, and the call that reads one of its kind;
* `Item.answer`: what that call gives, which is the item unless it was too large for its width;
* `Cursor.ask_write`: one item in front of anything else;
* `Cursor.answers_write`: any number of them;
* `Cursor.calls_sound_and_items_read_back`: this, and what holds of a cursor whatever it is asked.
-/

namespace HttpRelay

/-- Something that is written. Numbers are held in the next wider type of the machine. -/
inductive Item where
  | word16 (order : Word.Order) (n : UInt16)
  | word24 (n : UInt32)
  | word32 (order : Word.Order) (n : UInt32)
  | word64 (order : Word.Order) (n : UInt64)
  | vector16 (content : Bytes) (fits : content.length < 1 <<< 16)
  | vector24 (content : Bytes) (fits : content.length < 1 <<< 24)
  deriving DecidableEq, Repr

namespace Item

open Cursor (Call Answer)

/-- The octets of an item. -/
def write : Item → Bytes
  | word16 order n => order.write 2 n.toNat
  | word24 n => Word.Order.big.write 3 n.toNat
  | word32 order n => order.write 4 n.toNat
  | word64 order n => order.write 8 n.toNat
  | vector16 content _ => Word.Order.big.write 2 content.length ++ content
  | vector24 content _ => Word.Order.big.write 3 content.length ++ content

/-- The call for an item of the same kind. -/
def call : Item → Call
  | word16 order _ => .number order 2
  | word24 _ => .number .big 3
  | word32 order _ => .number order 4
  | word64 order _ => .number order 8
  | vector16 _ _ => .vector 2
  | vector24 _ _ => .vector 3

/-- What is read back of an item. Of a number that has three octets for its four, the low ones
are. -/
def answer : Item → Answer
  | word16 _ n => .number n.toNat
  | word24 n => .number (n.toNat % 1 <<< 24)
  | word32 _ n => .number n.toNat
  | word64 _ n => .number n.toNat
  | vector16 content _ => .bytes content
  | vector24 content _ => .bytes content

end Item

namespace Cursor

open Bytes

variable {c : Cursor} {tail : Bytes}

theorem parses_number (order : Word.Order) (width : Nat) :
    Parses (number order width) fun n front =>
      front.length = width ∧ order.value front = n := by
  cases order with
  | big => exact parses_be width
  | little =>
    refine ((parses_bytes width).bind fun taken => parses_pure _).congr fun n bytes => ?_
    constructor
    · rintro ⟨taken, first, second, rfl, ⟨rfl, hlength⟩, rfl, rfl⟩
      rw [List.append_nil]
      exact ⟨hlength, rfl⟩
    · rintro ⟨hlength, rfl⟩
      exact ⟨bytes, bytes, [], by simp, ⟨rfl, hlength⟩, rfl, rfl⟩

/-- A number is read back modulo its width. -/
theorem ask_number (order : Word.Order) (width n : Nat)
    (hrest : c.rest = order.write width n ++ tail) :
    ∃ c', c.ask (.number order width) = (.ok (.number (n % 1 <<< (8 * width))), c') ∧
      c'.rest = tail := by
  have hparses := (parses_number order width).bind fun n => parses_pure (Answer.number n)
  refine hparses.exists_run hrest ⟨_, _, [], (List.append_nil _).symm, ⟨?_, ?_⟩, rfl, rfl⟩
  · exact Word.Order.length_write order width n
  · exact Word.Order.value_write order width n

/-- A number that fits its width is read back as it is. -/
theorem ask_number_of_lt {order : Word.Order} {width n : Nat} (hfits : n < 1 <<< (8 * width))
    (hrest : c.rest = order.write width n ++ tail) :
    ∃ c', c.ask (.number order width) = (.ok (.number n), c') ∧ c'.rest = tail := by
  have hask := ask_number order width n hrest
  rwa [Nat.mod_eq_of_lt hfits] at hask

/-- A byte string is read back if its length fits. -/
theorem ask_vector {width : Nat} {content : Bytes} (hfits : content.length < 1 <<< (8 * width))
    (hrest : c.rest = (Word.Order.big.write width content.length ++ content) ++ tail) :
    ∃ c', c.ask (.vector width) = (.ok (.bytes content), c') ∧ c'.rest = tail := by
  have hparses := (parses_vector width).bind fun content => parses_pure (Answer.bytes content)
  exact hparses.exists_run hrest
    ⟨content, _, [], (List.append_nil _).symm, ⟨hfits, rfl⟩, rfl, rfl⟩

/-- An item is read back by the call for its kind, whatever is behind it. -/
theorem ask_write (item : Item) (hrest : c.rest = item.write ++ tail) :
    ∃ c', c.ask item.call = (.ok item.answer, c') ∧ c'.rest = tail := by
  cases item with
  | word16 order n => exact ask_number_of_lt n.toNat_lt hrest
  | word24 n => exact ask_number .big 3 n.toNat hrest
  | word32 order n => exact ask_number_of_lt n.toNat_lt hrest
  | word64 order n => exact ask_number_of_lt n.toNat_lt hrest
  | vector16 content fits => exact ask_vector fits hrest
  | vector24 content fits => exact ask_vector fits hrest

/-- Items in a row are read back in their order. -/
theorem answers_write (items : List Item) (hrest : c.rest = items.flatMap Item.write ++ tail) :
    c.answers (items.map Item.call) = items.map (fun item => .ok item.answer) ∧
      (c.after (items.map Item.call)).rest = tail := by
  induction items generalizing c with
  | nil => exact ⟨rfl, hrest⟩
  | cons item items ih =>
    rw [List.flatMap_cons, List.append_assoc] at hrest
    obtain ⟨c', hask, hrest'⟩ := ask_write item hrest
    obtain ⟨hanswers, hbehind⟩ := ih hrest'
    simp only [List.map_cons, answers, after_cons, hask]
    exact ⟨congrArg (_ :: ·) hanswers, hbehind⟩

/-- Whatever a cursor is asked for, and however often it fails, it stays within its input and does
not go back, it knows what is left, and what it gives is what the input holds just in front of it.
Items in a row are read back, and nothing is left of them. -/
theorem calls_sound_and_items_read_back :
    (∀ (input : Bytes) (calls : List Call),
      let c := (ofBytes input).after calls
      c.input = input ∧ c.position ≤ input.length ∧ c.remaining = input.length - c.position ∧
        (∀ more, c.position ≤ (c.after more).position) ∧
        ∀ call, match c.ask call with
          | (.ok answer, c') => call.Answered c c' answer
          | (.error e, c') => c'.Lacks e) ∧
    ∀ items : List Item,
      let c := ofBytes (items.flatMap Item.write)
      c.answers (items.map Item.call) = items.map (fun item => .ok item.answer) ∧
        (c.after (items.map Item.call)).isEmpty = true := by
  constructor
  · intro input calls c
    have hinput : c.input = input := (onward_after (ofBytes input) calls).input_eq
    refine ⟨hinput, hinput ▸ c.position_le, hinput ▸ rfl,
      fun more => (onward_after c more).position_le, fun call => ?_⟩
    rcases hask : c.ask call with ⟨e | answer, c'⟩
    · exact lacks_of_ask hask
    · exact answered_of_ask hask
  · intro items c
    have hrest : c.rest = items.flatMap Item.write ++ [] := (List.append_nil _).symm
    obtain ⟨hanswers, hbehind⟩ := answers_write items hrest
    exact ⟨hanswers, by rw [isEmpty_eq, hbehind]; rfl⟩

end Cursor

end HttpRelay
