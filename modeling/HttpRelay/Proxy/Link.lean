import HttpRelay.Transport.Buffered

/-!
# Links

A link is a connection as the relay holds it: what arrived on it, and how it breaks.
-/

namespace HttpRelay.Proxy

/-- What happens on a connection. -/
inductive Arrival where
  | bytes (bytes : Bytes)
  /-- The peer closes its sending side. -/
  | close
  /-- The peer goes away: nothing more arrives, and nothing reaches it. -/
  | gone (failure : IoFailure)
  /-- The connection fails in both directions. -/
  | lost (failure : IoFailure)
  deriving DecidableEq, Repr

/-- A connection. -/
structure Link where
  /-- Which of the connections of a session it is. -/
  number : Nat := 0
  input : Buffered := .ofFeed {} Buffered.defaultCapacity
  /-- How reading fails behind the last byte that arrived. -/
  unreadable : Option IoFailure := none
  /-- How writing fails. -/
  unwritable : Option IoFailure := none
  deriving DecidableEq, Repr

namespace Link

/-- The link behind what happens on it. -/
def receive (link : Link) : Arrival → Link
  | .bytes bytes => { link with input := link.input.push bytes }
  | .close => { link with input := link.input.close }
  | .gone failure => { link with input := link.input.close, unwritable := some failure }
  | .lost failure => { link with unreadable := some failure, unwritable := some failure }

/-- Number of bytes that arrived and were not read. -/
def backlog (link : Link) : Nat := link.input.pending.length

/-- The result of a read, which fails instead of waiting on a connection that has failed. -/
def resolve {ε α : Type} (link : Link) (failed : IoFailure → ε) (result : Except (Halt ε) α) :
    Except (Halt ε) α :=
  match result, link.unreadable with
  | .error .starved, some failure => .error (.failed (failed failure))
  | _, _ => result

/-- Whether a peer still has something to say, or `none` if that is not known yet. -/
def isAlive? (link : Link) : Option Bool :=
  if 0 < link.backlog then some true
  else if link.input.feed.closed || link.unreadable.isSome then some false
  else none

end Link

end HttpRelay.Proxy
