import HttpRelay.Bytes.Basic

/-!
# Requests and Their Framework

A web framework stands between the connection and the functions of the administrative interface:
it looks up header fields, finds the route of a request, and takes the path and the body apart. What
the interface needs of it is a `Framework`, and any one will do.
-/

namespace HttpRelay.Admin

/-- A request. -/
structure Request where
  method : String
  path : String
  headers : List (String × Bytes) := []
  body : Bytes := []
  deriving DecidableEq, Repr

/-- What a path stands for. -/
inductive Route where
  | status
  | throttle
  /-- The budget of a rule set, by its name as it stands in the path. -/
  | budget (encoded : String)
  | burstInterval
  | sessions
  deriving DecidableEq, Repr

/-- Whether a route takes a method. What can be read can be asked for without its body. -/
def Route.allows (route : Route) (method : String) : Bool :=
  match route with
  | budget _ | burstInterval => method == "PUT"
  | status | throttle | sessions => method == "GET" || method == "HEAD"

/-- What a web framework makes of requests. A refusal is the status that it answers with. -/
structure Framework where
  /-- The value of a header field, if there is one with the name that is plain text. -/
  field? : Request → String → Option String
  /-- The route of a request, by its path and its method. -/
  route : Request → Except Nat Route
  /-- The text that a segment of a path stands for. -/
  segment : String → Except Nat String
  /-- The `bytes_per_second` of a body. -/
  budget : Request → Except Nat Int64
  /-- The `ms` of a body. -/
  burst : Request → Except Nat UInt64

end HttpRelay.Admin
