import HttpRelay.Admin.Router
import HttpRelay.Proofs.Text.PercentEncoding
import HttpRelay.Proofs.Text.Utf8Decoding
import Mathlib.Data.Bool.AllAny

/-!
# Administrative requests

What a request bears and what it asks for, said apart from the framework that finds it out.

* `Request.HasField`, `Request.Bears`: the key that a request bears;
* `Request.IsFor`, `Request.Asks`: the path that a request is for, and the route;
* `Request.Carries`: the value that is the body of a request;
* `Framework.Lawful`: what a framework is documented to make of all this;
* `Request.PutsBudget`, `Request.PutsBurst`, `Request.GetsThrottle`: what the requests ask for;
* `Request.budgetPut`, `Request.burstPut`: the requests that a client writes, of which
  `Request.bears_put` and `Request.putsBudget_budgetPut` say that they are such.
-/

namespace HttpRelay.Admin

open Bytes
open Text.Percent (encode encode_ne_empty ne_of_mem_encode)

namespace Request

section Keys

/-- An octet of plain text: a tab, or a printable character of ASCII. -/
def IsPlain (b : UInt8) : Prop := b = 0x09 ∨ 0x20 ≤ b ∧ b ≤ 0x7E

instance (b : UInt8) : Decidable (IsPlain b) := inferInstanceAs (Decidable (_ ∨ _ ∧ _))

/-- The first field with a name, in any case of its letters, has a value, which is plain text. -/
def HasField (r : Request) (name value : String) : Prop :=
  ∃ front field back, r.headers = front ++ (field, ofText value) :: back ∧
    Text.eqIgnoreCase field name = true ∧
    (∀ other ∈ front, Text.eqIgnoreCase other.1 name = false) ∧ ∀ b ∈ ofText value, IsPlain b

/-- A request bears a key. No request bears the empty one. -/
def Bears (r : Request) (key : String) : Prop :=
  key ≠ "" ∧ r.HasField "authorization" ("Bearer " ++ key)

end Keys

section Paths

/-- A character that ends a path. -/
def EndsPath (c : Char) : Prop := c = '?' ∨ c = '#'

instance (c : Char) : Decidable (EndsPath c) := inferInstanceAs (Decidable (_ ∨ _))

/-- A request is for a path, with or without a query behind it. -/
def IsFor (r : Request) (path : String) : Prop :=
  (∀ c ∈ path.toList, ¬ EndsPath c) ∧
    ∃ query, r.path.toList = path.toList ++ query ∧ ∀ c, query.head? = some c → EndsPath c

theorem isFor_self {r : Request} (h : ∀ c ∈ r.path.toList, ¬ EndsPath c) : r.IsFor r.path :=
  ⟨h, [], (List.append_nil _).symm, by simp⟩

end Paths

end Request

namespace Route

/-- A name in a path is not empty, and is one segment. -/
def IsSegment (encoded : String) : Prop := encoded ≠ "" ∧ '/' ∉ encoded.toList

/-- Whether a route can be asked for. -/
def IsProper : Route → Prop
  | budget encoded => IsSegment encoded
  | status | throttle | burstInterval | sessions => True

/-- The path of a route. -/
def path : Route → String
  | status => "/admin/status"
  | throttle => "/admin/throttle"
  | budget encoded => "/admin/throttle/" ++ encoded
  | burstInterval => "/admin/burst-interval"
  | sessions => "/admin/sessions"

end Route

namespace Request

/-- A request asks for a route, by a method that the route takes. -/
structure Asks (r : Request) (route : Route) : Prop where
  path : r.IsFor route.path
  proper : route.IsProper
  allowed : route.allows r.method = true

/-- A request says that its body is JSON. -/
def IsJson (r : Request) : Prop := r.HasField "content-type" "application/json"

/-- The body of a request is a value, and it says so. -/
structure Carries (r : Request) (value : Json.Value) : Prop where
  json : r.IsJson
  body : r.body = ofText value.render

/-- The body of a request is longer than the two mebibytes that a framework takes by default. -/
structure IsOversized (r : Request) : Prop where
  json : r.IsJson
  length : 2097152 < r.body.length

end Request

/-- The behaviour that a framework is documented to have. Which other bodies and segments it takes,
and with which status it refuses them, is its own business. -/
structure Framework.Lawful (f : Framework) : Prop where
  /-- Of the fields with one name the first one counts, and only if it is plain text. -/
  field (r : Request) (name value : String) :
    f.field? r name = some value ↔ r.HasField name value
  /-- A request gets to the route that it asks for, and to no other one. -/
  route (r : Request) (route : Route) : f.route r = .ok route ↔ r.Asks route
  /-- Segments are percent-encoded. -/
  segment (text : String) : f.segment (encode text) = .ok text
  /-- The number of a body that is an object with this field alone is read. -/
  budget (r : Request) (value : Int64) :
    r.Carries (.object [("bytes_per_second", .number value.toInt)]) → f.budget r = .ok value
  burst (r : Request) (ms : UInt64) :
    r.Carries (.object [("ms", .number ms.toNat)]) → f.burst r = .ok ms
  /-- A body that is too long is refused, and not read. -/
  oversized (r : Request) : r.IsOversized → f.budget r = .error 413 ∧ f.burst r = .error 413

theorem Framework.Lawful.isAuthorized_iff {f : Framework} (hf : f.Lawful) {r : Request}
    {key : String} : f.isAuthorized key r = true ↔ r.Bears key := by
  rw [isAuthorized, Request.Bears, Bool.and_eq_true, beq_iff_eq, hf.field]
  simp

namespace Request

section Requests

variable (f : Framework) (r : Request)

/-- A request is about the budget of a rule set. Its name stands in the path, as the framework reads
it. -/
structure NamesBudget (name : String) : Prop where
  method : r.method = "PUT"
  path : ∃ encoded, Route.IsSegment encoded ∧ r.IsFor ("/admin/throttle/" ++ encoded) ∧
    f.segment encoded = .ok name

/-- A request sets the budget of a rule set. -/
structure PutsBudget (name : String) (value : Int64) : Prop extends r.NamesBudget f name where
  body : f.budget r = .ok value

/-- A request is about the time between ticks. -/
structure NamesBurst : Prop where
  method : r.method = "PUT"
  path : r.IsFor "/admin/burst-interval"

/-- A request sets the time between ticks. -/
structure PutsBurst (ms : UInt64) : Prop extends r.NamesBurst where
  body : f.burst r = .ok ms

/-- A request asks for the state of the scheduler. -/
structure GetsThrottle : Prop where
  method : r.method = "GET"
  path : r.IsFor "/admin/throttle"

variable {f r}

theorem NamesBudget.asks {name : String} (h : r.NamesBudget f name) :
    ∃ encoded, r.Asks (.budget encoded) ∧ f.segment encoded = .ok name := by
  obtain ⟨hmethod, encoded, hsegment, hpath, hname⟩ := h
  exact ⟨encoded, ⟨hpath, hsegment, beq_iff_eq.mpr hmethod⟩, hname⟩

theorem NamesBurst.asks (h : r.NamesBurst) : r.Asks .burstInterval :=
  ⟨h.path, trivial, beq_iff_eq.mpr h.method⟩

theorem GetsThrottle.asks (h : r.GetsThrottle) : r.Asks .throttle :=
  ⟨h.path, trivial, by rw [h.method]; rfl⟩

end Requests

section Written

variable {key path field name : String} {value : Int}

/-- A request that sets one number, as a client writes it. -/
def put (key path field : String) (value : Int) : Request where
  method := "PUT"
  path := path
  headers := [("authorization", ofText ("Bearer " ++ key)),
    ("content-type", ofText "application/json")]
  body := ofText (Json.Value.object [(field, .number value)]).render

/-- The request for a budget. -/
def budgetPut (key name : String) (value : Int64) : Request :=
  put key ("/admin/throttle/" ++ encode name) "bytes_per_second" value.toInt

/-- The request for a time between ticks. -/
def burstPut (key : String) (ms : UInt64) : Request :=
  put key "/admin/burst-interval" "ms" ms.toNat

theorem bears_put (hne : key ≠ "") (hplain : ∀ b ∈ ofText key, IsPlain b) :
    (put key path field value).Bears key := by
  have hscheme : ∀ b ∈ ofText "Bearer ", IsPlain b := List.all_iff_forall_prop.mp (by decide)
  refine ⟨hne, [], "authorization", _, rfl, by decide, by simp, fun b hb => ?_⟩
  rw [Text.Utf8.ofText_append] at hb
  exact (List.mem_append.mp hb).elim (hscheme b) (hplain b)

theorem isFor_put (hpath : ∀ c ∈ path.toList, ¬ EndsPath c) :
    (put key path field value).IsFor path := isFor_self hpath

theorem isJson_put : (put key path field value).IsJson := by
  have hother : Text.eqIgnoreCase "authorization" "content-type" = false := by decide
  have hplain : ∀ b ∈ ofText "application/json", IsPlain b :=
    List.all_iff_forall_prop.mp (by decide)
  exact ⟨[("authorization", _)], "content-type", [], rfl, by decide, by simpa using hother, hplain⟩

theorem carries_put : (put key path field value).Carries (.object [(field, .number value)]) :=
  ⟨isJson_put, by rw [put]⟩

variable {f : Framework} (hf : f.Lawful)

include hf

theorem putsBudget_budgetPut (hname : name ≠ "") (value : Int64) :
    (budgetPut key name value).PutsBudget f name value := by
  have hfixed : ∀ c ∈ "/admin/throttle/".toList, ¬ EndsPath c :=
    List.all_iff_forall_prop.mp (by decide)
  -- No character of an encoded name ends a segment or the path.
  refine ⟨⟨rfl, encode name, ⟨encode_ne_empty hname, fun hslash => ?_⟩, isFor_put fun c hc => ?_,
    hf.segment name⟩, hf.budget _ _ carries_put⟩
  · exact ne_of_mem_encode hslash (by decide) (by decide) rfl
  · rw [String.toList_append] at hc
    rcases List.mem_append.mp hc with hc | hc
    · exact hfixed c hc
    · rintro (hend | hend)
      · exact ne_of_mem_encode hc (by decide) (by decide) hend
      · exact ne_of_mem_encode hc (by decide) (by decide) hend

theorem putsBurst_burstPut (ms : UInt64) : (burstPut key ms).PutsBurst f ms := by
  have hpath : ∀ c ∈ "/admin/burst-interval".toList, ¬ EndsPath c :=
    List.all_iff_forall_prop.mp (by decide)
  exact ⟨⟨rfl, isFor_put hpath⟩, hf.burst _ _ carries_put⟩

end Written

end Request

end HttpRelay.Admin
