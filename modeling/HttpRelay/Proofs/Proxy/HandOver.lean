import HttpRelay.Proofs.Proxy.HeadReading
import HttpRelay.Proofs.Proxy.ServedRequest
import HttpRelay.Proofs.Tls.HelloParsing
import HttpRelay.Proofs.Transport.Incremental
import HttpRelay.Proofs.Transport.Replaying

/-!
# Connections that are handed over

A connection is handed over twice: behind the sniffed hello to the handshake, which reads the hello
again, and behind the heads of an upgrade to the relay of frames, which reads what was read ahead
of them. Neither loses a byte, and neither reads one twice.

* `Tls.ClientHello.sniff_ok`, `Tls.ClientHello.Sniffed`: the record that is taken, and what the
  handshake reads;
* `Proxy.HandedOver`: a connection from its last head to its frames;
* `Proxy.Session.receiveHead_upgraded`: the connections that an upgrade hands over;
* `handOver_loses_nothing`: both at once.
-/

namespace HttpRelay

namespace Tls

/-- The length that a record declares behind its type and its version. -/
def RecordHeader.declaredLength (record : Bytes) : Nat := Word.ofBe ((record.drop 3).take 2)

namespace ClientHello

open Outcome

/-- The length in a header is the one that its octets declare. -/
theorem length_header {start : Bytes} {header : RecordHeader}
    (hread : ((Cursor.ofBytes start).run RecordHeader.read).1 = .ok header) (behind : Bytes) :
    header.length = RecordHeader.declaredLength (start ++ behind) := by
  obtain ⟨front, hfront, major, minor, length, rfl, hlength, -, rfl⟩ :=
    parses_header.of_run (Prod.ext hread rfl)
  have hstart : start = 22 :: major :: minor :: length ++ _ := hfront
  rw [hstart, RecordHeader.declaredLength]
  -- behind the type and the version come the two octets of the length
  simp only [List.cons_append, List.drop_succ_cons, List.drop_zero, List.append_assoc]
  rw [← hlength, List.take_left]

/-- A hello that is sniffed off a connection is that of its first record, and no byte behind the
record is taken. -/
theorem sniff_ok {feed rest : Feed} {hello : ClientHello} {taken : Bytes}
    (h : feed.run sniff = (.ok (hello, taken), rest)) :
    let size := RecordHeader.size + RecordHeader.declaredLength feed.arrived
    size ≤ feed.arrived.length ∧ taken = feed.arrived.take size ∧ ofRecord taken = .ok hello ∧
      rest = { feed with arrived := feed.arrived.drop size } := by
  -- the header tells how many bytes are read behind it
  rw [Feed.run, sniff, run_bind] at h
  rcases hstart : (Feed.orFail (Feed.readExact RecordHeader.size) SniffError.io).run.run feed with
    ⟨halt | start, feed₁⟩
  · rw [hstart] at h
    cases (Prod.mk.inj h).1
  rw [hstart] at h
  obtain ⟨hsize, rfl, rfl⟩ := Feed.bytes_ok hstart
  dsimp only at h
  cases hheader : ((Cursor.ofBytes (feed.arrived.take RecordHeader.size)).run
      RecordHeader.read).1 with
  | error error =>
    rw [hheader] at h
    cases (Prod.mk.inj h).1
  | ok header =>
    rw [hheader] at h
    dsimp only at h
    rw [run_bind] at h
    rcases hfragment : (Feed.orFail (Feed.readExact header.length) SniffError.io).run.run
      { feed with arrived := feed.arrived.drop RecordHeader.size } with ⟨halt | fragment, feed₂⟩
    · rw [hfragment] at h
      cases (Prod.mk.inj h).1
    rw [hfragment] at h
    obtain ⟨hlength, rfl, rfl⟩ := Feed.bytes_ok hfragment
    have hdeclared := length_header hheader (feed.arrived.drop RecordHeader.size)
    rw [List.take_append_drop] at hdeclared
    dsimp only at h hlength
    rw [← List.take_add, List.drop_drop, hdeclared] at h
    rw [List.length_drop, hdeclared] at hlength
    split at h
    next => cases (Prod.mk.inj h).1
    next hello' hrecord =>
      obtain ⟨hvalue, rfl⟩ := Prod.mk.inj h
      obtain ⟨rfl, rfl⟩ := Prod.mk.inj (Except.ok.inj hvalue)
      exact ⟨by omega, rfl, hrecord, rfl⟩

/-- A hello that was sniffed off a connection, and what is handed to the handshake. -/
structure Sniffed (feed : Feed) (hello : ClientHello) (replay : Replay) : Prop where
  /-- The whole record had arrived. -/
  size_le : RecordHeader.size + RecordHeader.declaredLength feed.arrived ≤ feed.arrived.length
  /-- It was taken, and nothing behind it. -/
  held_eq : replay.held =
    feed.arrived.take (RecordHeader.size + RecordHeader.declaredLength feed.arrived)
  parsed : ofRecord replay.held = .ok hello
  /-- The handshake reads the connection from its first byte on. -/
  delivers : replay.Delivers feed

theorem sniffed_of_run {feed rest : Feed} {hello : ClientHello} {taken : Bytes}
    (h : feed.run sniff = (.ok (hello, taken), rest)) :
    Sniffed feed hello { held := taken, inner := rest } := by
  obtain ⟨hsize, rfl, hparsed, rfl⟩ := sniff_ok h
  refine ⟨hsize, rfl, hparsed, ?_⟩
  generalize RecordHeader.size + RecordHeader.declaredLength feed.arrived = size
  have hwhole := Replay.delivers_toFeed
    { held := feed.arrived.take size, inner := { feed with arrived := feed.arrived.drop size } }
  rwa [Replay.toFeed, Replay.pending, List.take_append_drop] at hwhole

end ClientHello

end Tls

namespace Proxy

open Http (RequestHead ResponseHead)

/-- A connection whose reader is handed over. All that there was `before` the head `raw` was read,
with what was `sent` since, is that head behind empty lines, a body, and what is incoming to who it
is handed to. -/
structure HandedOver (before : Buffered) (raw sent body : Bytes) (reader : Buffered)
    (incoming : Feed) : Prop where
  head : ∃ after, readHead before = (.ok (some raw), after)
  split : ∃ skipped : List Bytes, (∀ line ∈ skipped, Bytes.IsEmptyLine line) ∧
    before.pending ++ sent = skipped.flatten ++ raw ++ (body ++ incoming.arrived)
  /-- What the reader had read ahead is read first. -/
  delivers : (Replay.ofBuffered reader).Delivers incoming

namespace Phase

/-- Whether the head of a response is awaited. -/
def isAwaiting : Phase → Bool
  | awaiting .. => true
  | _ => false

/-- Whether frames are relayed. -/
def isUpgraded : Phase → Bool
  | upgraded => true
  | _ => false

theorem eq_awaiting {phase : Phase} (h : phase.isAwaiting = true) :
    ∃ x server, phase = .awaiting x server := by
  cases phase with
  | awaiting x server => exact ⟨x, server, rfl⟩
  | _ => cases h

theorem eq_upgraded {phase : Phase} (h : phase.isUpgraded = true) : phase = .upgraded := by
  cases phase with
  | upgraded => rfl
  | _ => cases h

end Phase

namespace Session

variable {x : Exchange} {server : Link} {head : ResponseHead} {s s' : Session}

/-- A head that is written on the way to an upgrade is received. -/
theorem tellHead_upgraded {answer : Answer} {next : Session → Session}
    (h : (s.tellHead answer next).phase = .upgraded) :
    ∃ s₁ : Session, s₁.client = s.client ∧ s.tellHead answer next = next s₁ := by
  rcases tellHead_cases s answer next with ⟨s₁, error, hfail⟩ | ⟨s₁, hclient, -, hnext⟩
  · rw [hfail] at h
    cases h
  · exact ⟨s₁, hclient, hnext⟩

/-- A session becomes a WebSocket with a response that switches protocols, and what has been read
ahead of both connections goes over to the relay of frames. -/
theorem receiveHead_upgraded (h : (s.receiveHead x server head).phase = .upgraded) :
    head.status = 101 ∧ ∃ relay, (s.receiveHead x server head).frames = some relay ∧
      relay.client.incoming = (Replay.ofBuffered s.client.input).toFeed ∧
      relay.server.incoming = (Replay.ofBuffered server.input).toFeed := by
  rw [receiveHead] at h ⊢
  split at h
  next hstatus =>
    rw [if_pos hstatus]
    refine ⟨hstatus, ?_⟩
    rw [upgrade] at h ⊢
    split at h
    next =>
      split at h
      next haccept =>
        obtain ⟨s₁, hclient, hnext⟩ := tellHead_upgraded h
        simp only [haccept, if_true]
        rw [hnext]
        exact ⟨_, rfl, by rw [FrameRelay.start, hclient], rfl⟩
      next => cases h
    next => cases h
  next =>
    -- any other response is announced or forwarded, and none of both is an upgrade
    exfalso
    split at h
    next =>
      split at h
      next => cases h
      next =>
        obtain ⟨s₁, -, hnext⟩ := tellHead_upgraded h
        rw [hnext] at h
        cases h
    next =>
      rw [respond] at h
      split at h
      next => cases h
      next =>
        obtain ⟨s₁, -, hnext⟩ := tellHead_upgraded h
        rw [hnext] at h
        cases h

/-- The step of an upgrade reads the head of a response that switches protocols. -/
theorem step_upgraded (hawaiting : s.phase = .awaiting x server) (hstep : s.step = some s')
    (hupgraded : s'.phase = .upgraded) :
    ∃ head, (readResponseHead server.input).1 = .ok head ∧ head.status = 101 ∧
      ∃ relay, s'.frames = some relay ∧
        relay.client.incoming = (Replay.ofBuffered s.client.input).toFeed ∧
        relay.server.incoming =
          (Replay.ofBuffered (readResponseHead server.input).2).toFeed := by
  rw [step, hawaiting] at hstep
  dsimp only at hstep
  split at hstep
  next => cases hstep
  next =>
    obtain rfl := Option.some.inj hstep
    cases hupgraded
  next head hread =>
    obtain rfl := Option.some.inj hstep
    exact ⟨head, Link.resolve_ok hread, receiveHead_upgraded hupgraded⟩

/-- An upgrade hands over both connections behind their last heads: that of the server behind the
head of the response, and that of the client behind the body of the request. -/
theorem upgraded_handedOver {s₀ s₁ : Session} {pooled : Option Link} {moves : List Move}
    (hidle : s₀.phase = .idle pooled) (hread : s₀.step = some s₁)
    (hmoves : s₁.followExchange moves = some s) (hawaiting : s.phase = .awaiting x server)
    (hstep : s.step = some s') (hupgraded : s'.phase = .upgraded) :
    ∃ request response body upload head relay,
      RequestHead.parse request = .ok x.request ∧ x.request.bodyKind = .ok x.body ∧
      BodyRelay.Took x.body body upload true ∧
      ResponseHead.parse response = .ok head ∧ head.status = 101 ∧ s'.frames = some relay ∧
      HandedOver s₀.client.input request (s₁.heard moves) body s.client.input
        relay.client.incoming ∧
      HandedOver server.input response [] [] (readResponseHead server.input).2
        relay.server.incoming := by
  obtain ⟨head, hresponse, hstatus, relay, hframes, hclient, hserver⟩ :=
    step_upgraded hawaiting hstep hupgraded
  obtain ⟨response, hresponse, hparsed⟩ := readResponseHead_ok hresponse
  obtain ⟨y, body, hrequest, hbody, htaken, hunder⟩ :=
    underway_of_read hidle hread hmoves (by rw [hawaiting]; rfl)
  rw [hawaiting] at hunder
  obtain ⟨rfl, upload, htook⟩ := hunder.of_awaiting
  obtain ⟨request, hrequest, hparsed'⟩ := readRequestHead_ok (Link.resolve_ok hrequest)
  -- each head was taken off the front of what was pending, and behind the request only its body
  obtain ⟨skipped, hskipped, hsplit⟩ := readHead_ok hrequest
  obtain ⟨skipped', hskipped', hsplit'⟩ := readHead_ok hresponse
  refine ⟨request, response, body, upload, head, relay, hparsed', hbody, htook, hparsed, hstatus,
    hframes, ⟨⟨_, hrequest⟩, ⟨skipped, hskipped, ?_⟩, ?_⟩,
    ⟨⟨_, hresponse⟩, ⟨skipped', hskipped', ?_⟩, ?_⟩⟩
  · rw [hsplit, List.append_assoc, htaken, hclient]
    rfl
  · rw [hclient]
    exact Replay.delivers_toFeed _
  · rw [hsplit', hserver, List.append_nil]
    rfl
  · rw [hserver]
    exact Replay.delivers_toFeed _

end Session

end Proxy

open Proxy Proxy.Session Tls Tls.ClientHello

/-- Nothing is lost where a connection is handed over, and nothing is read twice. Behind a hello
that was sniffed, the handshake reads the whole stream, whose first record was taken. Behind the
heads of an upgrade, the relay of frames reads what follows them, but for the body that the request
may have. -/
theorem handOver_loses_nothing :
    (∀ {feed rest : Feed} {hello : ClientHello} {taken : Bytes},
      feed.run sniff = (.ok (hello, taken), rest) →
      Sniffed feed hello { held := taken, inner := rest }) ∧
    ∀ {s₀ s₁ s s' : Session} {pooled : Option Link} {x : Exchange} {server : Link}
      {moves : List Move}, s₀.phase = .idle pooled → s₀.step = some s₁ →
      s₁.followExchange moves = some s → s.phase = .awaiting x server → s.step = some s' →
      s'.phase = .upgraded →
      ∃ request response body upload head relay,
        Http.RequestHead.parse request = .ok x.request ∧ x.request.bodyKind = .ok x.body ∧
        BodyRelay.Took x.body body upload true ∧ (x.body = .empty → body = []) ∧
        (∀ length, x.body = .contentLength length → body.length = length) ∧
        Http.ResponseHead.parse response = .ok head ∧ head.status = 101 ∧
        s'.frames = some relay ∧
        HandedOver s₀.client.input request (s₁.heard moves) body s.client.input
          relay.client.incoming ∧
        HandedOver server.input response [] [] (readResponseHead server.input).2
          relay.server.incoming := by
  refine ⟨sniffed_of_run, fun hidle hread hmoves hawaiting hstep hupgraded => ?_⟩
  obtain ⟨request, response, body, upload, head, relay, hrequest, hkind, htook, hresponse,
    hstatus, hframes, hclient, hserver⟩ :=
    upgraded_handedOver hidle hread hmoves hawaiting hstep hupgraded
  refine ⟨request, response, body, upload, head, relay, hrequest, hkind, htook, ?_, ?_, hresponse,
    hstatus, hframes, hclient, hserver⟩
  · intro hempty
    rw [hempty] at htook
    exact htook.of_empty.1
  · intro length hlength
    rw [hlength] at htook
    obtain ⟨left, -, htotal, hleft⟩ := htook.of_contentLength
    rw [hleft rfl] at htotal
    exact htotal

/-- A request for a WebSocket. -/
def upgradeRequest : Http.RequestHead where
  method := "GET"
  target := "/"
  version := 1
  headers := ⟨[⟨"Connection", "Upgrade"⟩, ⟨"Upgrade", "websocket"⟩, ⟨"Sec-WebSocket-Key", "key"⟩]⟩

/-- A response that grants it. -/
def upgradeResponse : Http.ResponseHead where
  status := 101
  reason := "Switching Protocols"
  headers := ⟨[⟨"Connection", "Upgrade"⟩, ⟨"Upgrade", "websocket"⟩,
    ⟨"Sec-WebSocket-Accept", WebSocket.Handshake.acceptKey ""⟩]⟩

/-- A client that does not wait for the response before it sends more. -/
def upgradeClient : Session :=
  start {} { ip := .v4 127 0 0 1, port := 4000 }
    { arrived := upgradeRequest.render ++ Bytes.ofText "early" }

/-- A connection to the server, more from the client, and the response with something behind it. -/
def upgradeExchange : List Move :=
  [.event (.dialed none), .step, .event (.client (.bytes (Bytes.ofText "late"))),
    .event (.server (.bytes (upgradeResponse.render ++ Bytes.ofText "first")))]

/-- Behind the request, behind the exchange and behind the upgrade. -/
def upgradeCourse : Option (Session × Session × Session) := do
  let s₁ ← upgradeClient.step
  let s ← s₁.followExchange upgradeExchange
  let s' ← s.step
  some (s₁, s, s')

/-- What there is to read of a client and of a server for a relay of frames. -/
def unreadFrames (s : Session) : Option (Bytes × Bytes) :=
  s.frames.map fun relay => (relay.client.incoming.arrived, relay.server.incoming.arrived)

/-- What came early or late from the client of a request for a WebSocket, and what came with the
grant, is there for the relay of frames. -/
theorem upgradeCourse_upgraded :
    ∃ (s₁ s s' : Session) (x : Exchange) (server : Link) (relay : FrameRelay),
      upgradeClient.step = some s₁ ∧ s₁.followExchange upgradeExchange = some s ∧
      s.phase = .awaiting x server ∧ s.step = some s' ∧ s'.phase = .upgraded ∧
      s'.frames = some relay ∧ relay.client.incoming.arrived = Bytes.ofText "earlylate" ∧
      relay.server.incoming.arrived = Bytes.ofText "first" := by
  have hseen : upgradeCourse.map (fun (_, s, s') => (s.phase.isAwaiting, s'.phase.isUpgraded,
      unreadFrames s')) =
        some (true, true, some (Bytes.ofText "earlylate", Bytes.ofText "first")) := by
    decide +kernel
  obtain ⟨⟨s₁, s, s'⟩, hcourse, hseen⟩ := Option.map_eq_some_iff.mp hseen
  obtain ⟨_, hread, hcourse⟩ := Option.bind_eq_some_iff.mp hcourse
  obtain ⟨_, hmoves, hcourse⟩ := Option.bind_eq_some_iff.mp hcourse
  obtain ⟨_, hstep, hcourse⟩ := Option.bind_eq_some_iff.mp hcourse
  cases hcourse
  simp only [Prod.mk.injEq] at hseen
  obtain ⟨hawaits, hupgraded, hunread⟩ := hseen
  obtain ⟨x, server, hawaiting⟩ := Phase.eq_awaiting hawaits
  obtain ⟨relay, hframes, hunread⟩ := Option.map_eq_some_iff.mp hunread
  obtain ⟨hclient, hserver⟩ := Prod.mk.inj hunread
  exact ⟨s₁, s, s', x, server, relay, hread, hmoves, hawaiting, hstep,
    Phase.eq_upgraded hupgraded, hframes, hclient, hserver⟩

/-- A record is sniffed in front of other bytes and read again, and a connection that is upgraded
is read behind its head. -/
theorem handOver_loses_nothing_with_read_ahead :
    ((Feed.complete (twoNames ++ Bytes.ofText "after")).run sniff =
        (.ok (⟨⟨3, 3⟩, [], [.serverName ["a.test"], .alpn ["h2"]]⟩, twoNames),
          .complete (Bytes.ofText "after")) ∧
      ((⟨twoNames, .complete (Bytes.ofText "after")⟩ : Replay).follow
        ((List.replicate 100 3).map .read)).1 = twoNames ++ Bytes.ofText "after") ∧
    ∃ (s₁ s s' : Session) (x : Exchange) (server : Link) (request response body : Bytes)
      (relay : FrameRelay), upgradeClient.phase = .idle none ∧ upgradeClient.step = some s₁ ∧
      s₁.followExchange upgradeExchange = some s ∧ s.phase = .awaiting x server ∧
      s.step = some s' ∧ s'.phase = .upgraded ∧ s'.frames = some relay ∧
      HandedOver upgradeClient.client.input request (s₁.heard upgradeExchange) body
        s.client.input relay.client.incoming ∧
      HandedOver server.input response [] [] (readResponseHead server.input).2
        relay.server.incoming ∧
      relay.client.incoming.arrived = Bytes.ofText "earlylate" ∧
      relay.server.incoming.arrived = Bytes.ofText "first" := by
  constructor
  · have hsniff : (Feed.complete (twoNames ++ Bytes.ofText "after")).run sniff =
        (.ok (⟨⟨3, 3⟩, [], [.serverName ["a.test"], .alpn ["h2"]]⟩, twoNames),
          .complete (Bytes.ofText "after")) := by
      decide +kernel
    exact ⟨hsniff, (handOver_loses_nothing.1 hsniff).delivers.drains [] (List.replicate 100 3)
      (by decide) (by decide)⟩
  · obtain ⟨s₁, s, s', x, server, relay, hread, hmoves, hawaiting, hstep, hupgraded, hframes,
      hclient, hserver⟩ := upgradeCourse_upgraded
    obtain ⟨request, response, body, upload, head, relay', -, -, -, -, -, -, -, hframes',
      hclient', hserver'⟩ :=
      handOver_loses_nothing.2 rfl hread hmoves hawaiting hstep hupgraded
    obtain rfl : relay = relay' := Option.some.inj (hframes.symm.trans hframes')
    exact ⟨s₁, s, s', x, server, request, response, body, relay, rfl, hread, hmoves, hawaiting,
      hstep, hupgraded, hframes, hclient', hserver', hclient, hserver⟩

end HttpRelay
