import HttpRelay.Proofs.Http.FieldLookup
import HttpRelay.Proofs.Outcome
import HttpRelay.Proxy.HeadForwarding

/-!
# Framing of forwarded requests

The relay decides how the body of a request ends on the head it received, and sends the server a
rewritten head. The two agree on the end of the body unless the client lists Content-Length in
its Connection fields: the length is then taken for a hop-by-hop field and lost.

* `RequestHead.bodyKind_congr`: the framing of a request depends on two names only;
* `bodyKind_forwardedRequest`: the framing that a forwarded head announces;
* `bodyKind_forwardedRequest_eq_iff`: when it is the framing of the head received.
-/

namespace HttpRelay.Http

namespace Headers

/-- The coding that the relay announces frames a body as chunked. -/
theorem framing_of_chunked {h : Headers} (hcoding : h.getAll "transfer-encoding" = ["chunked"]) :
    h.framing = .ok (some .chunked) := by
  have hcontains : h.contains "transfer-encoding" = true := by
    rw [contains_iff, hcoding]
    simp
  have hlast : h.transferCodings.getLast? = some "chunked" := by
    rw [transferCodings, hcoding]
    decide
  rw [framing, if_pos hcontains, hlast]
  rfl

end Headers

namespace RequestHead

/-- The framing of a request depends on its transfer codings and lengths alone. -/
theorem bodyKind_congr {head head' : RequestHead}
    (hcoding : head.headers.getAll "transfer-encoding" =
      head'.headers.getAll "transfer-encoding")
    (hlength : head.headers.getAll "content-length" = head'.headers.getAll "content-length") :
    head.bodyKind = head'.bodyKind := by
  have hcontains : head.headers.contains "transfer-encoding" =
      head'.headers.contains "transfer-encoding" := by
    rw [Bool.eq_iff_iff, Headers.contains_iff, Headers.contains_iff, hcoding]
  -- a request looks at the fields twice: for the framing, and for whether there is a coding
  rw [bodyKind, bodyKind, Headers.framing_congr hcoding hlength, hcontains]

/-- A request with a transfer coding has a chunked body, if its framing is accepted. -/
theorem getAll_coding_of_bodyKind {head : RequestHead} {kind : BodyKind}
    (hkind : head.bodyKind = .ok kind) (hne : kind ≠ .chunked) :
    head.headers.getAll "transfer-encoding" = [] := by
  refine Decidable.byContradiction fun hcoding => ?_
  have hcontains : head.headers.contains "transfer-encoding" = true :=
    Headers.contains_iff _ _ |>.mpr hcoding
  rw [bodyKind, Headers.framing, if_pos hcontains, if_pos hcontains] at hkind
  -- the last coding either is chunked, or the request is refused
  cases hlast : head.headers.transferCodings.getLast? with
  | none => simp [hlast] at hkind
  | some coding =>
    by_cases hchunked : Text.eqIgnoreCase coding "chunked" = true
    · simp [hlast, hchunked] at hkind
      exact hne hkind.symm
    · simp [hlast, hchunked] at hkind

/-- The body of a request never runs until the connection closes. -/
theorem bodyKind_ne_untilClose (head : RequestHead) : head.bodyKind ≠ .ok .untilClose := by
  intro hkind
  have hcoding := getAll_coding_of_bodyKind hkind (by simp)
  have hcontains : head.headers.contains "transfer-encoding" = false := by
    rw [Bool.eq_false_iff, ne_eq, Headers.contains_iff, hcoding]
    simp
  rw [bodyKind, hcontains, Headers.framing_of_no_coding hcoding] at hkind
  -- what is left are the lengths: refused, absent, zero or positive
  cases hlength : (head.headers.getAll "content-length").foldlM agreeLength none with
  | error error => simp [hlength] at hkind
  | ok length =>
    cases length with
    | none => simp [hlength] at hkind
    | some n =>
      by_cases hzero : n = 0 <;> simp [hlength, hzero] at hkind

end RequestHead

end HttpRelay.Http

namespace HttpRelay.Proxy

open Http (BodyKind Headers RequestHead sameName)

section Rewriting

variable (h : Headers) {name : String}

/-- Fields without a coding are given the one that the relay applies. -/
theorem getAll_coding_reframe (kind : BodyKind) (hnone : h.getAll "transfer-encoding" = []) :
    (reframe kind h).getAll "transfer-encoding" = if kind = .chunked then ["chunked"] else [] := by
  rw [reframe]
  split
  · rw [Headers.getAll_append, Headers.getAll_remove, if_neg (by decide), hnone,
      if_pos (by decide), List.nil_append]
  · exact hnone

/-- A body that is coded anew has no length, and every other body keeps its own. -/
theorem getAll_length_reframe (kind : BodyKind) :
    (reframe kind h).getAll "content-length" =
      if kind = .chunked then [] else h.getAll "content-length" := by
  rw [reframe]
  split
  · rw [Headers.getAll_append, Headers.getAll_remove, if_pos (by decide), if_neg (by decide),
      List.append_nil]
  · rfl

/-- To ask for a WebSocket changes four names only. -/
theorem getAll_askUpgrade (key : Option String)
    (hname : ∀ changed ∈ ["sec-websocket-extensions", "Sec-WebSocket-Key", "Connection", "Upgrade"],
      sameName changed name = false) :
    (askUpgrade key h).getAll name = h.getAll name := by
  cases key with
  | none => rfl
  | some key =>
    simp only [List.mem_cons, List.not_mem_nil, or_false, forall_eq_or_imp, forall_eq] at hname
    obtain ⟨hextensions, hkey, hconnection, hupgrade⟩ := hname
    simp [askUpgrade, Headers.getAll_append, Headers.getAll_set, Headers.getAll_remove,
      hextensions, hkey, hconnection, hupgrade]

/-- To add the client's address changes one name only. -/
theorem getAll_addForwarded (client : Net.IpAddress)
    (hname : sameName "X-Forwarded-For" name = false) :
    (addForwarded client h).getAll name = h.getAll name := by
  simp [addForwarded, Headers.getAll_set, hname]

end Rewriting

section Forwarding

variable (head : RequestHead) (kind : BodyKind) (key : Option String) (client : Net.IpAddress)

/-- A forwarded head names the transfer coding that the relay applies, and no other. -/
theorem getAll_coding_forwardedRequest :
    (forwardedRequest head kind key client).headers.getAll "transfer-encoding" =
      if kind = .chunked then ["chunked"] else [] := by
  -- the codings received never survive the strip
  have hstrip : (head.headers.stripHopByHop.remove "expect").getAll "transfer-encoding" = [] := by
    rw [Headers.getAll_remove, if_neg (by decide), Headers.getAll_coding_stripHopByHop]
  rw [forwardedRequest, getAll_addForwarded _ _ (by decide), getAll_askUpgrade _ _ (by decide),
    getAll_coding_reframe _ _ hstrip]

/-- A forwarded head keeps the lengths of the head received, unless the body is coded anew or
the Connection fields list them. -/
theorem getAll_length_forwardedRequest :
    (forwardedRequest head kind key client).headers.getAll "content-length" =
      if kind = .chunked ∨ "content-length" ∈ head.headers.connectionNames then []
      else head.headers.getAll "content-length" := by
  -- the lengths do, unless the client had them stripped
  have hstrip : (head.headers.stripHopByHop.remove "expect").getAll "content-length" =
      if "content-length" ∈ head.headers.connectionNames then []
      else head.headers.getAll "content-length" := by
    rw [Headers.getAll_remove, if_neg (by decide), Headers.getAll_length_stripHopByHop]
  rw [forwardedRequest, getAll_addForwarded _ _ (by decide), getAll_askUpgrade _ _ (by decide),
    getAll_length_reframe, hstrip]
  by_cases hchunked : kind = .chunked <;> simp only [hchunked, if_true, if_false, true_or, false_or]

/-- The framing that a forwarded head announces is the framing of the head received, except that
a length listed in the Connection fields is lost and leaves no body. -/
theorem bodyKind_forwardedRequest (hkind : head.bodyKind = .ok kind) :
    (forwardedRequest head kind key client).bodyKind =
      .ok (if kind ≠ .chunked ∧ "content-length" ∈ head.headers.connectionNames then .empty
        else kind) := by
  have hcoding := getAll_coding_forwardedRequest head kind key client
  have hlength := getAll_length_forwardedRequest head kind key client
  by_cases hchunked : kind = .chunked
  · -- the relay codes the body itself, whatever was listed
    rw [if_pos hchunked] at hcoding
    rw [if_neg (by simp [hchunked]), RequestHead.bodyKind, Headers.framing_of_chunked hcoding,
      hchunked]
    rfl
  · rw [if_neg hchunked] at hcoding
    by_cases hlisted : "content-length" ∈ head.headers.connectionNames
    · -- neither a coding nor a length is left, which is the framing of no body
      rw [if_pos (Or.inr hlisted)] at hlength
      have hcontains :
          (forwardedRequest head kind key client).headers.contains "transfer-encoding" = false := by
        rw [Bool.eq_false_iff, ne_eq, Headers.contains_iff, hcoding]
        simp
      rw [if_pos ⟨hchunked, hlisted⟩, RequestHead.bodyKind, hcontains,
        Headers.framing_of_no_coding hcoding, hlength]
      rfl
    · -- both names keep their values, on which alone the framing depends
      rw [if_neg (by simp [hchunked, hlisted])] at hlength
      rw [if_neg (by simp [hlisted]), ← hkind]
      apply RequestHead.bodyKind_congr
      · rw [hcoding, RequestHead.getAll_coding_of_bodyKind hkind hchunked]
      · exact hlength

/-- The relay and the server agree on the end of the body exactly if no length is listed in the
Connection fields of the request. -/
theorem bodyKind_forwardedRequest_eq_iff (hkind : head.bodyKind = .ok kind) :
    (forwardedRequest head kind key client).bodyKind = .ok kind ↔
      ¬ ((∃ length, kind = .contentLength length) ∧
        "content-length" ∈ head.headers.connectionNames) := by
  rw [bodyKind_forwardedRequest head kind key client hkind, Except.ok.injEq]
  by_cases hlisted : "content-length" ∈ head.headers.connectionNames
  · -- an empty body is announced as well by no length as by a length of zero
    cases kind with
    | empty => simp
    | contentLength length => simp [hlisted]
    | chunked => simp
    | untilClose => exact absurd hkind (RequestHead.bodyKind_ne_untilClose head)
  · simp [hlisted]

end Forwarding

/-- A request with a length and no Connection field is forwarded with its framing. -/
theorem bodyKind_forwardedRequest_plain_length :
    let head : RequestHead := ⟨"POST", "/", 1, ⟨[⟨"Content-Length", "3"⟩]⟩⟩
    head.bodyKind = .ok (.contentLength 3) ∧
      (forwardedRequest head (.contentLength 3) none (.v4 10 1 2 3)).bodyKind =
        .ok (.contentLength 3) := by
  refine ⟨rfl, (bodyKind_forwardedRequest_eq_iff _ _ _ _ rfl).mpr ?_⟩
  rintro ⟨_, hlisted⟩
  exact absurd hlisted (by decide)

/-- A request that lists its length in a Connection field keeps three bytes of body for the
relay, and is forwarded with none. -/
theorem bodyKind_forwardedRequest_listed_length :
    ∃ head : RequestHead,
      (RequestHead.parse (Bytes.ofText
        "POST / HTTP/1.1\r\nConnection: content-length\r\nContent-Length: 3\r\n\r\n")).toOption
          = some head ∧
      head.bodyKind = .ok (.contentLength 3) ∧
      (forwardedRequest head (.contentLength 3) none (.v4 10 1 2 3)).bodyKind = .ok .empty := by
  refine ⟨⟨"POST", "/", 1, ⟨[⟨"Connection", "content-length"⟩, ⟨"Content-Length", "3"⟩]⟩⟩,
    ?_, ?_, ?_⟩
  · decide +kernel
  · rfl
  · rfl

end HttpRelay.Proxy
