import HttpRelay.Proofs.Proxy.ResponseFraming
import HttpRelay.Proofs.Proxy.ServedRequest

/-!
# What the client is told about its connection

The relay decides on the request and on the framing of the response whether it keeps the client's
connection, and the head that it writes says so: by a Connection field where the version does not
say it already. But the version in that head is the server's, and the field is chosen by that of
the client. So a client of a later version is not told that its connection is kept if the server
has an early one.

* `keepAlive_forwardedResponse`: what a forwarded head says about the connection;
* `Session.step_responds`: the step that forwards the head of a response;
* `Session.followDownload`, `Session.delivers_moveDownload`: the moves that relay the body;
* `Understated`, `Session.keepAlive_written_iff_understated`: where the head and the session differ.
-/

namespace HttpRelay.Proxy

open Http (BodyKind Headers RequestHead ResponseHead keepsAlive)

section Heads

variable (head : ResponseHead) (kind : BodyKind) (keepAlive : Bool) (version : Nat)

/-- The Connection fields of a forwarded head are the relay's own. -/
theorem getAll_connection_forwardedResponse :
    (forwardedResponse head kind keepAlive version).headers.getAll "connection" =
      if keepAlive then if version = 0 then ["keep-alive"] else [] else ["close"] := by
  -- those of the server were for the connection to the server, and are stripped
  have hstrip : head.headers.stripHopByHop.getAll "connection" = [] := by
    rw [Headers.getAll_stripHopByHop, if_pos (.inl (by decide))]
  have hreframe : (reframe kind head.headers.stripHopByHop).getAll "connection" = [] := by
    have hcoding : Http.sameName "Transfer-Encoding" "connection" = false := by decide
    have hlength : Http.sameName "content-length" "connection" = false := by decide
    rw [reframe]
    split
    · simp [Headers.getAll_append, Headers.getAll_remove, hcoding, hlength, hstrip]
    · exact hstrip
  have hname : Http.sameName "Connection" "connection" = true := by decide
  rw [forwardedResponse, announce]
  cases keepAlive with
  | false => simp [Headers.getAll_append, hreframe, hname]
  | true =>
    by_cases hversion : version = 0
    · simp [Headers.getAll_append, hreframe, hname, hversion]
    · simp [hreframe, hversion]

/-- A forwarded head says that the connection is kept if it is, and its own version or a field says
so. -/
theorem keepAlive_forwardedResponse :
    (forwardedResponse head kind keepAlive version).keepAlive =
      (keepAlive && (1 ≤ head.version || version = 0)) := by
  have hversion : (forwardedResponse head kind keepAlive version).version = head.version := rfl
  have hclose : Text.listHasToken "close" "close" = true := by decide
  have hnone : Text.listHasToken "keep-alive" "close" = false := by decide
  have hkept : Text.listHasToken "keep-alive" "keep-alive" = true := by decide
  rw [ResponseHead.keepAlive, keepsAlive, Headers.hasToken, Headers.hasToken,
    getAll_connection_forwardedResponse, hversion]
  cases keepAlive with
  | false => simp [hclose]
  | true =>
    by_cases hzero : version = 0
    · simp [hzero, hnone, hkept]
    · simp [hzero]

end Heads

/-- A response that is forwarded in an early version, with a body that ends by itself, to a client
of a later version which wants its connection to stay open. -/
structure Understated (request : RequestHead) (response : ResponseHead) (kind : BodyKind) :
    Prop where
  wanted : request.keepAlive = true
  ends : kind ≠ .untilClose
  early : response.version = 0
  later : request.version ≠ 0

instance (request : RequestHead) (response : ResponseHead) (kind : BodyKind) :
    Decidable (Understated request response kind) :=
  decidable_of_iff (request.keepAlive = true ∧ kind ≠ .untilClose ∧ response.version = 0 ∧
      request.version ≠ 0)
    ⟨fun ⟨wanted, ends, early, later⟩ => ⟨wanted, ends, early, later⟩,
      fun ⟨wanted, ends, early, later⟩ => ⟨wanted, ends, early, later⟩⟩

/-- The head says what the relay decided, unless it is understated. -/
theorem keepAlive_forwardedResponse_iff (request : RequestHead) (response : ResponseHead)
    (kind : BodyKind) :
    let keepAlive := request.keepAlive && kind != .untilClose
    (forwardedResponse response kind keepAlive request.version).keepAlive = keepAlive ↔
      ¬ Understated request response kind := by
  intro keepAlive
  rw [keepAlive_forwardedResponse]
  have hunder : Understated request response kind ↔
      keepAlive = true ∧ response.version = 0 ∧ request.version ≠ 0 := by
    constructor
    · rintro ⟨wanted, ends, early, later⟩
      exact ⟨by simp [keepAlive, wanted, ends], early, later⟩
    · rintro ⟨hkept, early, later⟩
      obtain ⟨wanted, ends⟩ := Bool.and_eq_true_iff.mp hkept
      exact ⟨wanted, by simpa using ends, early, later⟩
  rw [hunder]
  cases keepAlive with
  | false => simp
  | true =>
    simp only [Bool.true_and, true_and, Bool.or_eq_true, decide_eq_true_eq]
    omega

namespace Session

variable {s s' : Session}

/-- The head of the request that the next step reads, if it reads one that is none of an error. -/
def requestHead? (s : Session) : Option RequestHead :=
  match s.phase with
  | .idle _ =>
    match s.client.resolve .io (readRequestHead s.client.input).1 with
    | .ok head => head
    | .error _ => none
  | _ => none

/-- The head of the response that the next step reads. -/
def responseHead? (s : Session) : Option ResponseHead :=
  match s.phase with
  | .awaiting _ server =>
    match server.resolve .io (readResponseHead server.input).1 with
    | .ok head => some head
    | .error _ => none
  | _ => none

/-- Whether the body of a response is being relayed. -/
def isDownloading (s : Session) : Bool :=
  match s.phase with
  | .downloading .. => true
  | _ => false

/-- Whether the next request is awaited. -/
def isIdle (s : Session) : Bool :=
  match s.phase with
  | .idle _ => true
  | _ => false

theorem result?_of_isIdle (h : s.isIdle = true) : s.result? = none := by
  unfold isIdle at h
  split at h
  next pooled hphase => rw [result?, hphase]
  next => cases h

/-- A session behind one move that is made while the body of a response is relayed. -/
def moveDownload (s : Session) (m : Move) : Option Session :=
  if s.isDownloading then s.move m else none

/-- A session behind moves that are made while the body of a response is relayed. -/
def followDownload (s : Session) (moves : List Move) : Option Session :=
  moves.foldlM moveDownload s

/-- A response that is forwarded is written with the head that the relay makes of its own, and its
body is relayed next. -/
theorem respond_forwards {x : Exchange} {server : Link} {head : ResponseHead}
    (h : (s.respond x server head).isDownloading = true) :
    ∃ kind, head.bodyKind x.request.method = .ok kind ∧
      (s.respond x server head).answers = s.answers ++ [.final (forwardedResponse head kind
        (x.request.keepAlive && kind != .untilClose) x.request.version)] ∧
      Delivers (x.request.keepAlive && kind != .untilClose)
        (s.respond x server head).phase := by
  cases hkind : head.bodyKind x.request.method with
  | error cause =>
    rw [respond, hkind] at h
    cases h
  | ok kind =>
    refine ⟨kind, rfl, ?_⟩
    rw [respond, hkind] at h ⊢
    dsimp only at h ⊢
    rcases tellHead_cases s _ _ with ⟨s₁, error, hfail⟩ | ⟨s₁, -, hwritten, hnext⟩
    · rw [hfail] at h
      cases h
    · rw [hnext]
      exact ⟨hwritten, .relaying⟩

/-- A step that reads the head of a final response deals with it as one to forward. -/
theorem step_responds {response : ResponseHead} (hresponse : s.responseHead? = some response)
    (hfinal : response.isInformational = false) (hstep : s.step = some s') :
    ∃ x server input, s.phase = .awaiting x server ∧
      s' = s.respond x { server with input } response := by
  unfold responseHead? at hresponse
  split at hresponse
  next x server hphase =>
    split at hresponse
    next head hread =>
      obtain rfl := Option.some.inj hresponse
      -- a final response does not switch protocols, and is not announced either
      have hswitch : ¬ head.status = 101 := by
        intro hstatus
        rw [ResponseHead.isInformational, hstatus] at hfinal
        cases hfinal
      rw [step, hphase] at hstep
      dsimp only at hstep
      rw [hread] at hstep
      obtain rfl := Option.some.inj hstep
      refine ⟨x, server, (readResponseHead server.input).2, hphase, ?_⟩
      rw [receiveHead, if_neg hswitch, if_neg (by simp [hfinal])]
    next => cases hresponse
  next => cases hresponse

/-- While a body is relayed, every move goes on with it. -/
theorem delivers_moveDownload {keepAlive : Bool} {m : Move} (h : Delivers keepAlive s.phase)
    (hmove : s.moveDownload m = some s') : Delivers keepAlive s'.phase := by
  rw [Session.moveDownload] at hmove
  split at hmove
  next hrelaying =>
    generalize hphase : s.phase = phase at h
    rw [isDownloading, hphase] at hrelaying
    cases h with
    | relaying =>
      cases m with
      | step =>
        rw [move, step, hphase] at hmove
        exact delivers_stepDownload hmove
      | event event =>
        obtain rfl := Option.some.inj hmove
        -- bytes that arrive wait on their connection, and nothing else is awaited now
        have hhere : Delivers keepAlive s.phase := by
          rw [hphase]
          exact .relaying
        cases event with
        | client arrival =>
          rw [receive]
          split
          · exact hhere
          · exact hhere
        | server arrival =>
          rw [receive]
          split
          · exact hhere
          · rw [receiveServer, hphase]
            exact .relaying
        | dialed failure =>
          have hdial : s.receiveDial failure = s := by simp [receiveDial, hphase]
          rw [receive, hdial]
          exact hhere
        | timedOut =>
          have hexpire : s.expire = s := by rw [expire, hphase]
          rw [receive, hexpire]
          exact hhere
    | kept | closed | failed => cases hrelaying
  next => cases hmove

/-- When the relay of a body is over and did not fail, the next request is awaited if the
connection is kept. -/
theorem isIdle_of_delivers {keepAlive : Bool} (h : Delivers keepAlive s.phase)
    (hover : s.isDownloading = false) (hcomplete : ∀ error, s.result? ≠ some (.error error)) :
    s.isIdle = keepAlive := by
  generalize hphase : s.phase = phase at h
  rw [isDownloading, hphase] at hover
  rw [isIdle, hphase]
  cases h with
  | relaying => cases hover
  | kept h => exact h.symm
  | closed h => exact h.symm
  | failed => exact absurd (by rw [result?, hphase]) (hcomplete _)

/-- The exchange of a request that was read serves that request until the head of its response is
read. -/
theorem awaiting_request {s₁ : Session} {request : RequestHead} {x : Exchange} {server : Link}
    {moves : List Move} (hrequest : s.requestHead? = some request) (hread : s.step = some s₁)
    (hmoves : s₁.followExchange moves = some s') (hphase : s'.phase = .awaiting x server) :
    x.request = request := by
  unfold requestHead? at hrequest
  split at hrequest
  next pooled hidle =>
    obtain ⟨y, taken, hhead, -, -, hunder⟩ :=
      underway_of_read hidle hread hmoves (by rw [hphase]; rfl)
    rw [hhead] at hrequest
    obtain rfl : y.request = request := Option.some.inj hrequest
    rw [hphase] at hunder
    rw [hunder.of_awaiting.1]
  next => cases hrequest

/-- The head of a response that is forwarded tells the client what becomes of its connection behind
the body, the next request or the end, unless the head is understated. -/
theorem keepAlive_written_iff_understated {s₁ s₂ s₃ s₄ : Session} {request : RequestHead}
    {response : ResponseHead} {before during : List Move}
    (hrequest : s.requestHead? = some request) (hread : s.step = some s₁)
    (hbefore : s₁.followExchange before = some s₂)
    (hresponse : s₂.responseHead? = some response) (hfinal : response.isInformational = false)
    (hforward : s₂.step = some s₃) (hbody : s₃.isDownloading = true)
    (hduring : s₃.followDownload during = some s₄) (hover : s₄.isDownloading = false)
    (hcomplete : ∀ error, s₄.result? ≠ some (.error error)) :
    ∃ kind written, response.bodyKind request.method = .ok kind ∧
      s₃.answers = s₂.answers ++ [.final written] ∧
      (written.keepAlive = s₄.isIdle ↔ ¬ Understated request response kind) := by
  obtain ⟨x, server, input, hawaiting, hresponds⟩ := step_responds hresponse hfinal hforward
  obtain rfl : x.request = request := awaiting_request hrequest hread hbefore hawaiting
  rw [hresponds] at hbody
  obtain ⟨kind, hkind, hwritten, hdelivers⟩ := respond_forwards hbody
  rw [← hresponds] at hwritten hdelivers
  -- what was decided with the head stands until the last piece of the body
  have hend : Delivers (x.request.keepAlive && kind != .untilClose) s₄.phase :=
    foldlM_induction (motive := fun s₄ =>
      Delivers (x.request.keepAlive && kind != .untilClose) s₄.phase) hduring hdelivers
      delivers_moveDownload
  refine ⟨kind, _, hkind, hwritten, ?_⟩
  rw [isIdle_of_delivers hend hover hcomplete]
  exact keepAlive_forwardedResponse_iff x.request response kind

/-- A request of version 1.1, and a client that sends it. -/
def plainRequest : RequestHead where
  method := "GET"
  target := "/"
  version := 1
  headers := ⟨[]⟩

def plainClient : Session :=
  start {} { ip := .v4 127 0 0 1, port := 4000 } { arrived := plainRequest.render }

/-- A response with two bytes of body, in an early version or in that of the request. -/
def plainResponse (early : Bool) : ResponseHead where
  status := 200
  reason := "OK"
  version := if early then 0 else 1
  headers := ⟨[⟨"Content-Length", "2"⟩]⟩

/-- A connection to the server, the request on it, and the response. -/
def plainExchange (early : Bool) : List Move :=
  [.event (.dialed none), .step,
    .event (.server (.bytes ((plainResponse early).render ++ Bytes.ofText "ok")))]

/-- Behind the request, behind the response, behind its head and behind its body. -/
def plainCourse (early : Bool) : Option (Session × Session × Session × Session) := do
  let s₁ ← plainClient.step
  let s₂ ← s₁.followExchange (plainExchange early)
  let s₃ ← s₂.step
  let s₄ ← s₃.followDownload [.step, .step]
  some (s₁, s₂, s₃, s₄)

/-- The response is forwarded in its own version with no field for the connection, and the next
request is awaited behind it. -/
theorem plainCourse_forwards (early : Bool) :
    ∃ s₁ s₂ s₃ s₄ : Session, plainClient.requestHead? = some plainRequest ∧
      plainClient.step = some s₁ ∧ s₁.followExchange (plainExchange early) = some s₂ ∧
      s₂.responseHead? = some (plainResponse early) ∧ s₂.step = some s₃ ∧
      s₃.isDownloading = true ∧ s₃.followDownload [.step, .step] = some s₄ ∧
      s₄.isDownloading = false ∧ s₄.isIdle = true ∧
      s₃.answers = s₂.answers ++ [.final (plainResponse early)] := by
  have hrequest : plainClient.requestHead? = some plainRequest := by decide +kernel
  have hseen : (plainCourse early).map (fun (_, s₂, s₃, s₄) =>
      (s₂.responseHead?, s₂.answers, s₃.isDownloading, s₃.answers, s₄.isDownloading, s₄.isIdle)) =
      some (some (plainResponse early), [], true, [.final (plainResponse early)], false, true) := by
    cases early with
    | false => decide +kernel
    | true => decide +kernel
  obtain ⟨⟨s₁, s₂, s₃, s₄⟩, hcourse, hseen⟩ := Option.map_eq_some_iff.mp hseen
  obtain ⟨_, hread, hcourse⟩ := Option.bind_eq_some_iff.mp hcourse
  obtain ⟨_, hbefore, hcourse⟩ := Option.bind_eq_some_iff.mp hcourse
  obtain ⟨_, hforward, hcourse⟩ := Option.bind_eq_some_iff.mp hcourse
  obtain ⟨_, hduring, hcourse⟩ := Option.bind_eq_some_iff.mp hcourse
  cases hcourse
  simp only [Prod.mk.injEq] at hseen
  obtain ⟨hresponse, hnone, hbody, hwritten, hover, hidle⟩ := hseen
  exact ⟨s₁, s₂, s₃, s₄, hrequest, hread, hbefore, hresponse, hforward, hbody, hduring, hover,
    hidle, by rw [hwritten, hnone]; rfl⟩

/-- A head of the client's version says that the connection is kept, and it is. -/
theorem keepAlive_written_of_same_version :
    ∃ s₁ s₂ s₃ s₄ : Session, plainClient.requestHead? = some plainRequest ∧
      plainClient.step = some s₁ ∧ s₁.followExchange (plainExchange false) = some s₂ ∧
      s₂.responseHead? = some (plainResponse false) ∧
      (plainResponse false).isInformational = false ∧ s₂.step = some s₃ ∧
      s₃.isDownloading = true ∧ s₃.followDownload [.step, .step] = some s₄ ∧
      s₄.isDownloading = false ∧ (∀ error, s₄.result? ≠ some (.error error)) ∧
      ∃ written, s₃.answers = s₂.answers ++ [.final written] ∧
        written.keepAlive = s₄.isIdle ∧ s₄.isIdle = true := by
  obtain ⟨s₁, s₂, s₃, s₄, hrequest, hread, hbefore, hresponse, hforward, hbody, hduring, hover,
    hidle, -⟩ := plainCourse_forwards false
  have hcomplete : ∀ error, s₄.result? ≠ some (.error error) := fun error => by
    rw [result?_of_isIdle hidle]
    exact nofun
  obtain ⟨kind, written, -, hwritten, hagrees⟩ := keepAlive_written_iff_understated hrequest hread
    hbefore hresponse (by decide) hforward hbody hduring hover hcomplete
  have hlate : ¬ Understated plainRequest (plainResponse false) kind := fun h => by
    cases h.early
  exact ⟨s₁, s₂, s₃, s₄, hrequest, hread, hbefore, hresponse, by decide, hforward, hbody, hduring,
    hover, hcomplete, written, hwritten, hagrees.mpr hlate, hidle⟩

/-- A head of an early version says that the connection closes, and the next request is
awaited. -/
theorem not_keepAlive_written_of_early_version :
    ∃ s₁ s₂ s₃ s₄ : Session, plainClient.requestHead? = some plainRequest ∧
      plainClient.step = some s₁ ∧ s₁.followExchange (plainExchange true) = some s₂ ∧
      s₂.responseHead? = some (plainResponse true) ∧
      (plainResponse true).isInformational = false ∧ s₂.step = some s₃ ∧
      s₃.isDownloading = true ∧ s₃.followDownload [.step, .step] = some s₄ ∧
      s₄.isDownloading = false ∧ (∀ error, s₄.result? ≠ some (.error error)) ∧
      ∃ written, s₃.answers = s₂.answers ++ [.final written] ∧
        written.keepAlive = false ∧ s₄.isIdle = true := by
  obtain ⟨s₁, s₂, s₃, s₄, hrequest, hread, hbefore, hresponse, hforward, hbody, hduring, hover,
    hidle, hwritten⟩ := plainCourse_forwards true
  exact ⟨s₁, s₂, s₃, s₄, hrequest, hread, hbefore, hresponse, by decide, hforward, hbody, hduring,
    hover, fun error => by rw [result?_of_isIdle hidle]; exact nofun, _, hwritten, by decide,
    hidle⟩

end Session

end HttpRelay.Proxy
