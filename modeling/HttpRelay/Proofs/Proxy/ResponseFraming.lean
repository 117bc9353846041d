import HttpRelay.Proofs.Http.LengthFields
import HttpRelay.Proofs.Proxy.RequestFraming

/-!
# Framing of forwarded responses

The relay decides how the body of a response ends on the head it received, and sends the client a
rewritten head. The rewriting takes the transfer codings away, and with them what outranked a
length; and a server can have its length taken away by listing it in a Connection field. In both
cases the client looks for the end of the body at another place than the relay.

* `lengthFraming`: how lengths frame a body when there is no coding;
* `bodyKind_forwardedResponse`: the framing that a forwarded head announces;
* `LosesLength`, `KeepsOutrankedLength`: two ways in which it differs from the one received;
* `bodyKind_forwardedResponse_eq_iff`: there are no others.
-/

namespace HttpRelay.Http

open Outcome

/-- How lengths frame a body. -/
def lengthFraming (lengths : List String) : Except HeadError (Option BodyKind) :=
  (fun length : Option Nat =>
    length.map fun n => if n = 0 then BodyKind.empty else .contentLength n) <$>
      lengths.foldlM agreeLength none

/-- Lengths frame a body as soon as there are any. -/
theorem lengthFraming_eq_none_iff {lengths : List String} :
    lengthFraming lengths = .ok none ↔ lengths = [] := by
  refine ⟨fun h => Classical.byContradiction fun hsome => ?_, fun h => by rw [h]; rfl⟩
  rw [lengthFraming] at h
  cases hfold : lengths.foldlM agreeLength none with
  | error error =>
    rw [hfold, map_error] at h
    cases h
  | ok length =>
    obtain ⟨n, rfl, -⟩ := (foldlM_agree_iff agreeLength_eq_ok_iff hsome none length).mp hfold
    rw [hfold, map_ok] at h
    cases h

/-- Lengths alone never leave the end of a body to the close. -/
theorem lengthFraming_ne_untilClose (lengths : List String) :
    lengthFraming lengths ≠ .ok (some .untilClose) := by
  intro h
  rw [lengthFraming] at h
  cases hfold : lengths.foldlM agreeLength none with
  | error error =>
    rw [hfold, map_error] at h
    cases h
  | ok length =>
    rw [hfold, map_ok, Except.ok.injEq, Option.map_eq_some_iff] at h
    obtain ⟨n, -, hn⟩ := h
    split at hn <;> cases hn

namespace ResponseHead

/-- Whether a response has no body, whatever its fields say. -/
def isBodiless (head : ResponseHead) (method : String) : Bool :=
  Text.eqIgnoreCase method "HEAD" || head.isInformational || head.status = 204
    || head.status = 304

/-- Every other response has the body that its fields frame, or one that runs until the close. -/
theorem bodyKind_eq (head : ResponseHead) (method : String) :
    head.bodyKind method =
      if head.isBodiless method then .ok .empty
      else (·.getD .untilClose) <$> head.headers.framing := by
  rw [bodyKind, ← isBodiless]
  cases head.isBodiless method with
  | true => rfl
  | false => cases head.headers.framing <;> rfl

/-- Without a coding the body of a response ends by its lengths. -/
theorem bodyKind_of_no_coding {head : ResponseHead} {method : String}
    (hbody : head.isBodiless method = false)
    (hcoding : head.headers.getAll "transfer-encoding" = []) :
    head.bodyKind method =
      (·.getD .untilClose) <$> lengthFraming (head.headers.getAll "content-length") := by
  rw [bodyKind_eq, hbody, if_neg (by decide), Headers.framing_of_no_coding hcoding, lengthFraming]

/-- A length ends the body of a response only if there is no coding. -/
theorem getAll_coding_of_bodyKind {head : ResponseHead} {method : String} {kind : BodyKind}
    (hkind : head.bodyKind method = .ok kind) (hbody : head.isBodiless method = false)
    (hchunked : kind ≠ .chunked) (hclose : kind ≠ .untilClose) :
    head.headers.getAll "transfer-encoding" = [] := by
  refine Classical.byContradiction fun hcoding => ?_
  have hcontains : head.headers.contains "transfer-encoding" = true :=
    Headers.contains_iff _ _ |>.mpr hcoding
  rw [bodyKind_eq, hbody, if_neg (by decide), Headers.framing, if_pos hcontains] at hkind
  -- the last coding is chunked, or the body runs until the close
  cases hlast : head.headers.transferCodings.getLast? with
  | none => exact hclose (by simpa [hlast] using hkind.symm)
  | some coding =>
    by_cases hcoded : Text.eqIgnoreCase coding "chunked" = true
    · exact hchunked (by simpa [hlast, hcoded] using hkind.symm)
    · exact hclose (by simpa [hlast, hcoded] using hkind.symm)

/-- A length ends the body of a response, and its Connection fields list it. -/
def LosesLength (head : ResponseHead) (kind : BodyKind) : Prop :=
  (kind = .empty ∨ ∃ length, kind = .contentLength length) ∧
    "content-length" ∈ head.headers.connectionNames

/-- The body of a response runs until the close, and a length outlives what outranked it. -/
def KeepsOutrankedLength (head : ResponseHead) (kind : BodyKind) : Prop :=
  kind = .untilClose ∧ head.headers.getAll "content-length" ≠ [] ∧
    "content-length" ∉ head.headers.connectionNames

end ResponseHead

end HttpRelay.Http

namespace HttpRelay.Proxy

open Http (BodyKind Headers ResponseHead lengthFraming)
open Outcome

section Forwarding

variable (head : ResponseHead) (kind : BodyKind) (method : String) (keepAlive : Bool)
  (version : Nat)

/-- To announce whether the connection stays open changes one name only. -/
theorem getAll_announce (h : Headers) {name : String}
    (hname : Http.sameName "Connection" name = false) :
    (announce keepAlive version h).getAll name = h.getAll name := by
  rw [announce]
  split
  · simp [Headers.getAll_append, hname]
  · split
    · simp [Headers.getAll_append, hname]
    · rfl

theorem getAll_coding_forwardedResponse :
    (forwardedResponse head kind keepAlive version).headers.getAll "transfer-encoding" =
      if kind = .chunked then ["chunked"] else [] := by
  rw [forwardedResponse, getAll_announce _ _ _ (by decide),
    getAll_coding_reframe _ _ (Headers.getAll_coding_stripHopByHop _)]

theorem getAll_length_forwardedResponse :
    (forwardedResponse head kind keepAlive version).headers.getAll "content-length" =
      if kind = .chunked then []
      else if "content-length" ∈ head.headers.connectionNames then []
      else head.headers.getAll "content-length" := by
  rw [forwardedResponse, getAll_announce _ _ _ (by decide), getAll_length_reframe,
    Headers.getAll_length_stripHopByHop]

/-- The framing that a forwarded head announces: that of the relay's own coding, or that of the
lengths which are left. -/
theorem bodyKind_forwardedResponse :
    (forwardedResponse head kind keepAlive version).bodyKind method =
      if head.isBodiless method then .ok .empty
      else if kind = .chunked then .ok .chunked
      else (·.getD .untilClose) <$> lengthFraming
        (if "content-length" ∈ head.headers.connectionNames then []
          else head.headers.getAll "content-length") := by
  -- status and method stay as they are
  have hbodiless : (forwardedResponse head kind keepAlive version).isBodiless method =
      head.isBodiless method := rfl
  have hcoding := getAll_coding_forwardedResponse head kind keepAlive version
  have hlength := getAll_length_forwardedResponse head kind keepAlive version
  cases hbody : head.isBodiless method with
  | true => rw [ResponseHead.bodyKind_eq, hbodiless, hbody, if_pos rfl, if_pos rfl]
  | false =>
    rw [hbody] at hbodiless
    rw [if_neg (by decide)]
    by_cases hchunked : kind = .chunked
    · rw [if_pos hchunked] at hcoding
      rw [ResponseHead.bodyKind_eq, hbodiless, if_neg (by decide),
        Headers.framing_of_chunked hcoding, if_pos hchunked]
      rfl
    · rw [if_neg hchunked] at hcoding hlength
      rw [ResponseHead.bodyKind_of_no_coding hbodiless hcoding, hlength, if_neg hchunked]

/-- The relay and the client agree on the end of the body of a response exactly if there is none in
any case, or its length is neither lost nor kept against a coding. -/
theorem bodyKind_forwardedResponse_eq_iff (hkind : head.bodyKind method = .ok kind) :
    (forwardedResponse head kind keepAlive version).bodyKind method = .ok kind ↔
      head.isBodiless method = true ∨
        ¬ head.LosesLength kind ∧ ¬ head.KeepsOutrankedLength kind := by
  rw [bodyKind_forwardedResponse]
  cases hbody : head.isBodiless method with
  | true =>
    rw [ResponseHead.bodyKind_eq, hbody, if_pos rfl] at hkind
    simpa using hkind
  | false =>
    rw [if_neg (by decide)]
    simp only [Bool.false_eq_true, false_or, ResponseHead.LosesLength,
      ResponseHead.KeepsOutrankedLength]
    by_cases hlisted : "content-length" ∈ head.headers.connectionNames
    · -- no length is left, so that a body which is not chunked runs until the close
      cases kind <;> simp [hlisted, lengthFraming]
    · simp only [hlisted, if_false, and_false, not_false_eq_true, true_and, and_true]
      by_cases hclose : kind = .untilClose
      · -- the coding that outranked the lengths is gone, and any length that is left counts
        subst hclose
        simp only [reduceCtorEq, if_false, true_and, ne_eq, Decidable.not_not]
        rw [← Http.lengthFraming_eq_none_iff]
        have hne := Http.lengthFraming_ne_untilClose (head.headers.getAll "content-length")
        cases hframing : lengthFraming (head.headers.getAll "content-length") with
        | error error => simp
        | ok length =>
          cases length with
          | none => simp
          | some kind => simpa [hframing] using hne
      · by_cases hchunked : kind = .chunked
        · simp [hchunked]
        · -- there was no coding to begin with, and the lengths are the same
          have hcoding := ResponseHead.getAll_coding_of_bodyKind hkind hbody hchunked hclose
          rw [if_neg hchunked, ← ResponseHead.bodyKind_of_no_coding hbody hcoding]
          simp [hkind, hclose]

end Forwarding

/-- A response with a length is forwarded with its framing. -/
theorem bodyKind_forwardedResponse_plain_length :
    let head : ResponseHead := ⟨200, "OK", 1, ⟨[⟨"Content-Length", "3"⟩]⟩⟩
    head.bodyKind "GET" = .ok (.contentLength 3) ∧
      (forwardedResponse head (.contentLength 3) true 1).bodyKind "GET" =
        .ok (.contentLength 3) := by
  refine ⟨rfl, (bodyKind_forwardedResponse_eq_iff _ _ _ _ _ rfl).mpr (.inr ⟨?_, ?_⟩)⟩
  · rintro ⟨-, hlisted⟩
    exact absurd hlisted (by decide)
  · rintro ⟨hclose, -⟩
    cases hclose

/-- A response in a coding other than chunked runs until the close for the relay, and is forwarded
with the length that the coding outranked. -/
theorem bodyKind_forwardedResponse_outranked_length :
    ∃ head : ResponseHead,
      (ResponseHead.parse (Bytes.ofText
        "HTTP/1.1 200 OK\r\nTransfer-Encoding: gzip\r\nContent-Length: 3\r\n\r\n")).toOption
          = some head ∧
      head.bodyKind "GET" = .ok .untilClose ∧
      (forwardedResponse head .untilClose false 1).bodyKind "GET" = .ok (.contentLength 3) := by
  refine ⟨⟨200, "OK", 1, ⟨[⟨"Transfer-Encoding", "gzip"⟩, ⟨"Content-Length", "3"⟩]⟩⟩, ?_, ?_, ?_⟩
  · decide +kernel
  · rfl
  · rfl

end HttpRelay.Proxy
