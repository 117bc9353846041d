import HttpRelay.Proxy.Session
import HttpRelay.Service.Listener
import HttpRelay.Service.Tracker
import HttpRelay.Tls.CertificateStore

/-!
# Server

The relay as a whole: connections are accepted as long as there are permits, taken through the
TLS handshake if there are certificates, and served by a session each. A server that is stopped
accepts no more, and is drained when its last session has ended.
-/

namespace HttpRelay.Proxy

open Service (Listener Tracker)

/-- A connection that comes in. -/
structure Client where
  peer : Net.SocketAddress
  /-- What arrives on it. -/
  feed : Feed := {}
  deriving DecidableEq, Repr

/-- A server whose certificates are of some kind. -/
structure Server (α : Type) where
  config : Config
  /-- The certificates, unless connections are plain. -/
  certificates : Option (Tls.CertificateStore α) := none
  listener : Listener
  tracker : Tracker := {}
  /-- The open sessions by the number of their guard. -/
  sessions : List (Nat × Session) := []
  isStopping : Bool := false

namespace Server

variable {α : Type}

/-- The session of a client, unless its handshake fails. `handshake` gives what arrives behind a
completed handshake. -/
def admit? (s : Server α) (handshake : α → Replay → Option Feed) (client : Client) :
    Option Session :=
  match s.certificates with
  | none => some (Session.start s.config client.peer client.feed)
  | some store =>
    match (store.acceptWithin handshake client.feed (s.config.timeouts.head * 1000)).1 with
    | .ok feed => some (Session.start s.config client.peer feed)
    | .error _ => none

/-- Accept the connection that waits longest. There is no result if the server is stopped, if no
one connects, or if no permit is left. -/
def accept? (s : Server α) (handshake : α → Replay → Option Feed) (clients : Nat → Client) :
    Option (Server α) :=
  if s.isStopping then none
  else
    match s.listener.accept? with
    | none => none
    | some (connection, listener) =>
      let (guard, tracker) := s.tracker.track
      match s.admit? handshake (clients connection) with
      | some session =>
        some { s with listener, tracker, sessions := s.sessions ++ [(guard, session.settle)] }
      | none => some { s with listener := listener.release, tracker := tracker.release [guard] }

/-- Give back what ended sessions hold. -/
def reap (s : Server α) : Server α :=
  let ended := s.sessions.filter (·.2.result?.isSome)
  { s with
    sessions := s.sessions.filter (·.2.result?.isNone)
    listener := ended.foldl (fun listener _ => listener.release) s.listener
    tracker := s.tracker.release (ended.map Prod.fst) }

/-- Pass an event to a session. -/
def handle (s : Server α) (session : Nat) (event : Event) : Server α :=
  { s with
    sessions := s.sessions.map fun (guard, served) =>
      (guard, if guard = session then Session.handle served event else served) }.reap

/-- Accept no more connections. -/
def stop (s : Server α) : Server α := { s with isStopping := true }

/-- Whether every session has ended. -/
def isDrained (s : Server α) : Bool := s.tracker.active == 0

end Server

end HttpRelay.Proxy
