import HttpRelay.Net.Address

/-!
# Session Registry

The sessions that are open, oldest first. A session is known by the number it was given when it
was opened.
-/

namespace HttpRelay.Service

/-- What is known of an open session. -/
structure SessionInfo where
  id : String := ""
  peer : Net.SocketAddress
  tls : Bool
  /-- When it was opened, in milliseconds. -/
  openedAt : Nat := 0
  requests : Nat := 0
  isWebSocket : Bool := false
  deriving DecidableEq, Repr

/-- The open sessions by number. -/
structure Registry where
  sessions : List (Nat × SessionInfo) := []
  /-- How many sessions were ever opened. -/
  opened : Nat := 0
  deriving DecidableEq, Repr

namespace Registry

/-- Open a session. Its number is that of the sessions opened before it. -/
def register (r : Registry) (info : SessionInfo) : Registry :=
  { sessions := r.sessions ++ [(r.opened, info)], opened := r.opened + 1 }

/-- Change what is known of a session, if it is open. -/
def modify (r : Registry) (session : Nat) (f : SessionInfo → SessionInfo) : Registry :=
  { r with sessions := r.sessions.map fun s => if s.1 = session then (s.1, f s.2) else s }

/-- Count a request of a session. -/
def recordRequest (r : Registry) (session : Nat) : Registry :=
  r.modify session fun info => { info with requests := info.requests + 1 }

/-- Mark a session as upgraded. -/
def markWebSocket (r : Registry) (session : Nat) : Registry :=
  r.modify session ({ · with isWebSocket := true })

/-- Close a session, if it is open. -/
def close (r : Registry) (session : Nat) : Registry :=
  { r with sessions := r.sessions.filter (·.1 ≠ session) }

/-- What is known of an open session. -/
def info? (r : Registry) (session : Nat) : Option SessionInfo := r.sessions.lookup session

/-- Number of open sessions. -/
def size (r : Registry) : Nat := r.sessions.length

/-- The open sessions, oldest first. -/
def snapshot (r : Registry) : List SessionInfo := r.sessions.map Prod.snd

end Registry

end HttpRelay.Service
