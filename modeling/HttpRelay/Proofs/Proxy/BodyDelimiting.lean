import HttpRelay.Http.Body
import HttpRelay.Proofs.Chunked.Copying
import HttpRelay.Proxy.Error

/-!
# Where a body ends

What a byte string holds of a body that begins with it, by the kind of the body, and how a body is
put on the wire piece by piece.

* `Delimited`, `delimit`: the body at the start of some bytes;
* `coded`, `closing`: a piece of a body on the wire, and its end;
* `delimit_coded`: what was put on the wire delimits itself.
-/

namespace HttpRelay.Proxy

/-- A body at the start of some bytes. -/
structure Delimited where
  payload : Bytes
  /-- The bytes behind the body, or what is wrong with it. -/
  result : Except Error Bytes

/-- The same with some payload in front. -/
def Delimited.behind (payload : Bytes) (body : Delimited) : Delimited :=
  { body with payload := payload ++ body.payload }

/-- The body of a kind at the start of some bytes. -/
def delimit : Http.BodyKind → Bytes → Delimited
  | .empty, bytes => ⟨[], .ok bytes⟩
  | .contentLength length, bytes =>
    if length ≤ bytes.length then ⟨bytes.take length, .ok (bytes.drop length)⟩
    else ⟨bytes, .error (.io .unexpectedEof)⟩
  | .chunked, bytes =>
    ⟨(Chunked.decode bytes).data, (Chunked.decode bytes).result.mapError .chunked⟩
  | .untilClose, bytes => ⟨bytes, .ok []⟩

/-- Some bytes of a counted body can be taken first. -/
theorem delimit_contentLength_take {left k : Nat} {bytes : Bytes} (hleft : k ≤ left)
    (hbytes : k ≤ bytes.length) :
    delimit (.contentLength left) bytes =
      (delimit (.contentLength (left - k)) (bytes.drop k)).behind (bytes.take k) := by
  rw [delimit, delimit, List.length_drop]
  by_cases hall : left ≤ bytes.length
  · rw [if_pos hall, if_pos (by omega), Delimited.behind, List.drop_drop, ← List.take_add,
      Nat.add_sub_cancel' hleft]
  · rw [if_neg hall, if_neg (by omega), Delimited.behind, List.take_append_drop]

/-- How a piece of a body is put on the wire. -/
def coded : Http.BodyKind → Bytes → Bytes
  | .chunked => Chunked.recode
  | _ => id

/-- What ends a body on the wire. -/
def closing : Http.BodyKind → Bytes
  | .chunked => Chunked.terminator
  | _ => []

/-- Only a chunked body is coded anew. -/
theorem coded_eq_self {kind : Http.BodyKind} (hkind : kind ≠ .chunked) (piece : Bytes) :
    coded kind piece = piece := by
  cases kind with
  | chunked => exact absurd rfl hkind
  | _ => rfl

theorem closing_eq_nil {kind : Http.BodyKind} (hkind : kind ≠ .chunked) : closing kind = [] := by
  cases kind with
  | chunked => exact absurd rfl hkind
  | _ => rfl

/-- Pieces that make up a body make up one on the wire as well. -/
theorem delimit_coded {kind : Http.BodyKind} {pieces : List Bytes} {bytes rest : Bytes}
    (hbody : delimit kind bytes = ⟨pieces.flatten, .ok rest⟩)
    (hsmall : ∀ piece ∈ pieces, piece.length < UInt64.size) :
    delimit kind (pieces.flatMap (coded kind) ++ closing kind) = ⟨pieces.flatten, .ok []⟩ := by
  by_cases hkind : kind = .chunked
  · subst hkind
    have hdecode := Chunked.decode_recoded hsmall []
    rw [List.append_nil] at hdecode
    simp only [delimit, coded, closing, hdecode]
    rfl
  · have hwire : pieces.flatMap (coded kind) ++ closing kind = pieces.flatten := by
      rw [closing_eq_nil hkind, List.append_nil, funext (coded_eq_self hkind)]
      simp [List.flatMap_def]
    rw [hwire]
    -- the payload delimits itself
    cases kind with
    | chunked => exact absurd rfl hkind
    | empty =>
      obtain ⟨hnone, -⟩ := Delimited.mk.inj hbody
      rw [← hnone]
      rfl
    | contentLength length =>
      rw [delimit] at hbody
      split at hbody
      next hall =>
        obtain ⟨htaken, -⟩ := Delimited.mk.inj hbody
        have hlength : pieces.flatten.length = length := by
          rw [← htaken, List.length_take]
          omega
        rw [delimit, if_pos (by omega), List.take_of_length_le (by omega),
          List.drop_of_length_le (by omega)]
      next => cases (Delimited.mk.inj hbody).2
    | untilClose => rfl

end HttpRelay.Proxy
