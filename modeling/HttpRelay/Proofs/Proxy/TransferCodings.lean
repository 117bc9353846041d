import HttpRelay.Proofs.Proxy.ResponseFraming

/-!
# Transfer codings of forwarded heads

A chunked body may be coded before it is cut into chunks. The relay takes it out of its chunks and
cuts it anew, and passes on what is in the chunks as it came; the head that it sends says chunked
and nothing else. So the codings that came before chunked are lost, of requests and of responses.

* `Headers.exists_last_coding`: what the codings of a chunked body are;
* `Headers.codingNames_eq_iff`: when chunked alone says all of them;
* `transferCodings_forwarded_eq_iff`: when a forwarded head has the codings of the one received.
-/

namespace HttpRelay.Http.Headers

variable {h : Headers}

/-- The transfer codings that the fields list, in lower case. -/
def codingNames (h : Headers) : List String := h.transferCodings.map Text.asciiLower

/-- The last coding of a chunked body is chunked. -/
theorem exists_last_coding (hframing : h.framing = .ok (some .chunked)) :
    ∃ codings, h.codingNames = codings ++ ["chunked"] := by
  rw [framing] at hframing
  split at hframing
  next =>
    cases hlast : h.transferCodings.getLast? with
    | none => simp [hlast] at hframing
    | some coding =>
      obtain ⟨codings, hcodings⟩ := List.getLast?_eq_some_iff.mp hlast
      have hchunked : Text.eqIgnoreCase coding "chunked" = true :=
        Decidable.byContradiction fun hother => by simp [hlast, hother] at hframing
      have hlower : Text.asciiLower coding = "chunked" := by
        rw [Text.eqIgnoreCase, beq_iff_eq] at hchunked
        exact hchunked
      refine ⟨codings.map Text.asciiLower, ?_⟩
      rw [codingNames, hcodings, List.map_append, List.map_singleton, hlower]
  next =>
    -- lengths frame no chunks
    cases hlengths : (h.getAll "content-length").foldlM agreeLength none with
    | error error => simp [hlengths] at hframing
    | ok length =>
      cases length with
      | none => simp [hlengths] at hframing
      | some n => by_cases hzero : n = 0 <;> simp [hlengths, hzero] at hframing

/-- Chunked alone says all codings of a chunked body exactly if there is no other. -/
theorem codingNames_eq_iff (hframing : h.framing = .ok (some .chunked)) :
    ["chunked"] = h.codingNames ↔ h.transferCodings.length = 1 := by
  obtain ⟨codings, hcodings⟩ := exists_last_coding hframing
  have hlength : h.transferCodings.length = codings.length + 1 := by
    rw [← List.length_map (f := Text.asciiLower), ← codingNames, hcodings, List.length_append,
      List.length_singleton]
  rw [hcodings, hlength, List.self_eq_append_left, Nat.add_eq_right, List.length_eq_zero_iff]

end HttpRelay.Http.Headers

namespace HttpRelay.Proxy

open Http (BodyKind Headers RequestHead ResponseHead)
open Outcome

/-- The codings of a head that names the relay's own. -/
theorem codingNames_of_own {h : Headers} (hown : h.getAll "transfer-encoding" = ["chunked"]) :
    h.codingNames = ["chunked"] := by
  rw [Headers.codingNames, Headers.transferCodings, hown]
  decide

/-- A request with a chunked body says so in its fields. -/
theorem framing_of_request {head : RequestHead} (hkind : head.bodyKind = .ok .chunked) :
    head.headers.framing = .ok (some .chunked) := by
  rw [RequestHead.bodyKind] at hkind
  cases hframing : head.headers.framing with
  | error error =>
    rw [hframing, error_bind] at hkind
    cases hkind
  | ok kind =>
    rw [hframing, ok_bind] at hkind
    cases kind with
    | none =>
      dsimp only at hkind
      split at hkind <;> cases hkind
    | some kind =>
      obtain rfl : kind = .chunked := Except.ok.inj hkind
      rfl

/-- A response with a chunked body says so in its fields. -/
theorem framing_of_response {head : ResponseHead} {method : String}
    (hkind : head.bodyKind method = .ok .chunked) :
    head.headers.framing = .ok (some .chunked) := by
  rw [ResponseHead.bodyKind_eq] at hkind
  split at hkind
  next => cases hkind
  next =>
    cases hframing : head.headers.framing with
    | error error =>
      rw [hframing, map_error] at hkind
      cases hkind
    | ok kind =>
      rw [hframing, map_ok] at hkind
      cases kind with
      | none => cases hkind
      | some kind =>
        obtain rfl : kind = .chunked := Except.ok.inj hkind
        rfl

/-- A message with a chunked body is sent on with the transfer codings of the head received
exactly if chunked is the only one. -/
theorem transferCodings_forwarded_eq_iff (request : RequestHead) (key : Option String)
    (client : Net.IpAddress) (response : ResponseHead) (method : String) (keepAlive : Bool)
    (version : Nat) :
    (request.bodyKind = .ok .chunked →
      ((forwardedRequest request .chunked key client).headers.codingNames =
          request.headers.codingNames ↔
        request.headers.transferCodings.length = 1)) ∧
    (response.bodyKind method = .ok .chunked →
      ((forwardedResponse response .chunked keepAlive version).headers.codingNames =
          response.headers.codingNames ↔
        response.headers.transferCodings.length = 1)) := by
  constructor
  · intro hkind
    rw [codingNames_of_own (getAll_coding_forwardedRequest request .chunked key client)]
    exact Headers.codingNames_eq_iff (framing_of_request hkind)
  · intro hkind
    rw [codingNames_of_own (getAll_coding_forwardedResponse response .chunked keepAlive version)]
    exact Headers.codingNames_eq_iff (framing_of_response hkind)

/-- A body that is chunked and nothing else is sent on under its coding. -/
theorem transferCodings_forwarded_chunked_alone :
    let request : RequestHead := ⟨"POST", "/", 1, ⟨[⟨"Transfer-Encoding", "chunked"⟩]⟩⟩
    let response : ResponseHead := ⟨200, "OK", 1, ⟨[⟨"transfer-encoding", ", Chunked"⟩]⟩⟩
    (request.bodyKind = .ok .chunked ∧ response.bodyKind "POST" = .ok .chunked) ∧
      (forwardedRequest request .chunked none (.v4 10 1 2 3)).headers.codingNames = ["chunked"] ∧
      (forwardedResponse response .chunked true 1).headers.codingNames = ["chunked"] := by
  intro request response
  have hrequest : request.bodyKind = .ok .chunked := rfl
  have hresponse : response.bodyKind "POST" = .ok .chunked := rfl
  have hsame := transferCodings_forwarded_eq_iff request none (.v4 10 1 2 3) response "POST" true 1
  refine ⟨⟨hrequest, hresponse⟩, ?_, ?_⟩
  · rw [(hsame.1 hrequest).mpr (by decide)]
    decide
  · rw [(hsame.2 hresponse).mpr (by decide)]
    decide

/-- A body that was compressed before it was cut into chunks is sent on as chunked only. -/
theorem transferCodings_forwarded_compressed :
    ∃ (request : RequestHead) (response : ResponseHead),
      (RequestHead.parse (Bytes.ofText
        "POST / HTTP/1.1\r\nTransfer-Encoding: gzip, chunked\r\n\r\n")).toOption
          = some request ∧
      (ResponseHead.parse (Bytes.ofText
        "HTTP/1.1 200 OK\r\nTransfer-Encoding: gzip\r\nTransfer-Encoding: chunked\r\n\r\n")
          ).toOption = some response ∧
      request.bodyKind = .ok .chunked ∧ response.bodyKind "POST" = .ok .chunked ∧
      request.headers.codingNames = ["gzip", "chunked"] ∧
      response.headers.codingNames = ["gzip", "chunked"] ∧
      (forwardedRequest request .chunked none (.v4 10 1 2 3)).headers.codingNames = ["chunked"] ∧
      (forwardedResponse response .chunked true 1).headers.codingNames = ["chunked"] := by
  refine ⟨⟨"POST", "/", 1, ⟨[⟨"Transfer-Encoding", "gzip, chunked"⟩]⟩⟩,
    ⟨200, "OK", 1, ⟨[⟨"Transfer-Encoding", "gzip"⟩, ⟨"Transfer-Encoding", "chunked"⟩]⟩⟩,
    ?_, ?_, rfl, rfl, ?_⟩
  · decide +kernel
  · decide +kernel
  · decide

end HttpRelay.Proxy
