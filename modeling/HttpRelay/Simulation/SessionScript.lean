import HttpRelay.Net.Destination
import HttpRelay.Proxy.Session
import HttpRelay.Service.Registry

/-!
# Sessions with a Scripted Client

A script plays the client of a session whose server cannot be reached: every attempt to connect
fails in the same way.
-/

namespace HttpRelay.Simulation.SessionScript

open HttpRelay.Proxy

/-- A step of the client. -/
inductive Step where
  | send (bytes : Bytes)
  /-- Read until these bytes were received. -/
  | wait (bytes : Bytes)
  /-- Close the sending side. -/
  | finish
  /-- From now on, whatever the session waits for runs into its time limit. -/
  | stall
  /-- Look at the open sessions. -/
  | look

/-- A session with its client. -/
structure Stage where
  session : Session
  tls : Bool := false
  /-- How an attempt to connect fails. -/
  dialFailure : IoFailure
  /-- Number of received bytes up to the end of what was last waited for. -/
  matched : Nat := 0
  finished : Bool := false
  stalled : Bool := false
  /-- What was seen of the open sessions, last first. -/
  looks : List (List Service.SessionInfo) := []

/-- How an attempt to connect fails where there is no network. -/
def failureWithoutNetwork (address : String) : IoFailure :=
  if (Net.Destination.parse? address).isSome then .networkUnreachable else .invalidInput

/-- Whether the session waits for a connection. -/
def isConnecting (s : Session) : Bool :=
  match s.phase with
  | .connecting .. => true
  | _ => false

/-- Let at most `attempts` attempts to connect fail. -/
def failDials (failure : IoFailure) (s : Session) : (attempts : Nat) → Session
  | 0 => s
  | attempts + 1 =>
    if isConnecting s then failDials failure (s.handle (.dialed (some failure))) attempts else s

/-- An event, and the attempts to connect that follow from it. -/
def happen (stage : Stage) (event : Event) : Stage :=
  let attempts : Service.Backoff := { retries := stage.session.config.server.retries }
  let session := failDials stage.dialFailure (stage.session.handle event) attempts.limit
  { stage with session }

/-- How many bytes there are up to the end of the first occurrence of a slice. -/
def endOf? (slice : Bytes) (passed : Nat) (bytes : Bytes) : Option Nat :=
  if slice.isPrefixOf bytes then some (passed + slice.length)
  else
    match bytes with
    | _ :: rest => endOf? slice (passed + 1) rest
    | [] => none

/-- Look for what is waited for behind what was found before. -/
def find? (stage : Stage) (bytes : Bytes) : Option Stage :=
  (endOf? bytes stage.matched (stage.session.written.drop stage.matched)).map fun matched =>
    { stage with matched }

/-- What the registry holds of the session. -/
def info (stage : Stage) : List Service.SessionInfo :=
  let s := stage.session
  match s.result? with
  | some _ => []
  | none => [{ peer := s.peer, tls := stage.tls, requests := s.requests,
               isWebSocket := s.isWebSocket }]

/-- Take a step. There is no result if what the client waits for does not come. -/
def step (stage : Stage) : Step → Option Stage
  | .send bytes => some (happen stage (.client (.bytes bytes)))
  | .wait bytes =>
    (find? stage bytes).or
      (if stage.stalled then find? (happen stage .timedOut) bytes else none)
  | .finish => some { happen stage (.client .close) with finished := true }
  | .stall => some { stage with stalled := true }
  | .look => some { stage with looks := info stage :: stage.looks }

/-- Take steps as long as there is a result. -/
def steps (stage : Stage) : List Step → Stage
  | [] => stage
  | s :: rest =>
    match step stage s with
    | some stage => steps stage rest
    | none => stage

/-- Play a script. Behind its last step the client closes its sending side, unless it did, or
stalls. -/
def play (stage : Stage) (script : List Step) : Stage :=
  let stage := steps stage script
  if stage.stalled then happen stage .timedOut
  else if stage.finished then stage
  else happen stage (.client .close)

end HttpRelay.Simulation.SessionScript
