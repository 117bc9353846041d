import HttpRelay.Admin.Framework
import HttpRelay.Admin.MediaType
import HttpRelay.Json.Reader
import HttpRelay.Text.Percent

/-!
# A Framework

A `Framework` as it is documented: of the fields with one name the first one counts, paths are
matched without their query, segments are percent-encoded, and a body is JSON that says so, up to
a limit.
-/

namespace HttpRelay.Admin

namespace Request

/-- The value of the first header field with a name, if it is plain text. -/
def header? (r : Request) (name : String) : Option String := do
  let (_, value) ← r.headers.find? fun h => Text.eqIgnoreCase h.1 name
  if value.all fun b => b == 0x09 || (0x20 ≤ b && b ≤ 0x7E) then Text.Utf8.decode? value
  else failure

/-- The path without the query. -/
def plainPath (r : Request) : String :=
  String.ofList (r.path.toList.takeWhile fun c => c ≠ '?' && c ≠ '#')

/-- Most bytes of a body. -/
def bodyLimit : Nat := 2097152

/-- The value that the body holds, or the status of the refusal. -/
def read {α : Type} (r : Request) (value : Json.Read α) : Except Nat α :=
  if ((r.header? "content-type").bind MediaType.parse?).any MediaType.isJson then
    if bodyLimit < r.body.length then .error 413
    else
      match value.whole r.body with
      | .ok a => .ok a
      | .error .malformed => .error 400
      | .error .mismatch => .error 422
  else .error 415

end Request

/-- The route of a path. -/
def Route.ofPath? (path : String) : Option Route :=
  match Text.splitAtChar '/' path with
  | ["", "admin", "status"] => some status
  | ["", "admin", "throttle"] => some throttle
  | ["", "admin", "throttle", name] => if name.isEmpty then none else some (budget name)
  | ["", "admin", "burst-interval"] => some burstInterval
  | ["", "admin", "sessions"] => some sessions
  | _ => none

namespace Framework

/-- The route of a request, if its path has one that takes its method. -/
def routeOf (r : Request) : Except Nat Route :=
  match Route.ofPath? r.plainPath with
  | none => .error 404
  | some route => if route.allows r.method then .ok route else .error 405

/-- The framework as it is documented. -/
def standard : Framework where
  field? := Request.header?
  route := routeOf
  segment encoded :=
    match Text.Percent.decode? encoded with
    | none => .error 400
    | some text => .ok text
  budget r := (r.read (.object "bytes_per_second"
    (.integer Int64.minValue.toInt Int64.maxValue.toInt))).map Int64.ofInt
  burst r := (r.read (.object "ms" (.integer 0 (UInt64.size - 1)))).map fun ms => .ofNat ms.toNat

end Framework

end HttpRelay.Admin
