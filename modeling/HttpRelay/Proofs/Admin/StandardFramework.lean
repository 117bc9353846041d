import HttpRelay.Admin.StandardFramework
import HttpRelay.Proofs.Admin.Requests
import HttpRelay.Proofs.Json.OneField
import HttpRelay.Proofs.Text.Elements
import Mathlib.Data.List.TakeWhile

/-!
# The framework as it is documented

The functions of the framework meet their descriptions.

* `Request.header?_eq_some_iff`: the field that a header has;
* `Request.plainPath_eq_iff`, `Route.ofPath?_eq_some_iff`, `Framework.routeOf_eq_ok_iff`: the path
  and the route that a request asks for;
* `Request.read_of_carries`, `Request.read_of_isOversized`: a value is read back, and a body that is
  too long is refused;
* `Framework.standard_lawful`: the framework has the behaviour that one has to have.
-/

namespace HttpRelay.Admin

open Bytes

namespace Request

variable {r : Request} {name value path : String}

theorem header?_eq_some_iff : r.header? name = some value ↔ r.HasField name value := by
  have hplain (octets : Bytes) : (octets.all fun b => b == 0x09 || (0x20 ≤ b && b ≤ 0x7E)) = true ↔
      ∀ b ∈ octets, IsPlain b := by
    simp [IsPlain]
  constructor
  · intro h
    obtain ⟨⟨field, octets⟩, hfind, hvalue⟩ := Option.bind_eq_some_iff.mp h
    obtain ⟨hname, front, back, hheaders, hfront⟩ := List.find?_eq_some_iff_append.mp hfind
    dsimp only at hvalue
    split at hvalue
    next hall =>
      obtain rfl := Text.Utf8.ofText_of_decode? hvalue
      exact ⟨front, field, back, hheaders, hname, by simpa using hfront, (hplain _).mp hall⟩
    next => cases hvalue
  · rintro ⟨front, field, back, hheaders, hname, hfront, hall⟩
    have hfind : (r.headers.find? fun h => Text.eqIgnoreCase h.1 name) =
        some (field, ofText value) :=
      List.find?_eq_some_iff_append.mpr ⟨hname, front, back, hheaders, by simpa using hfront⟩
    rw [header?, hfind]
    change (if _ then _ else _) = _
    rw [if_pos ((hplain _).mpr hall), Text.Utf8.decode?_ofText]

theorem plainPath_eq_iff : r.plainPath = path ↔ r.IsFor path := by
  let stays (c : Char) : Bool := c ≠ '?' && c ≠ '#'
  have hstays (c : Char) : stays c = true ↔ ¬ EndsPath c := by
    simp [stays, EndsPath]
  have hplain : r.plainPath.toList = r.path.toList.takeWhile stays := String.toList_ofList
  constructor
  · rintro rfl
    refine ⟨fun c hc => ?_, r.path.toList.dropWhile stays, ?_, fun c hc => ?_⟩
    · rw [hplain] at hc
      exact (hstays c).mp (List.mem_takeWhile_imp hc)
    · rw [hplain, List.takeWhile_append_dropWhile]
    · -- what is dropped begins where the path ends
      have hends : stays c ≠ true := by
        have hhead := List.head?_dropWhile_not stays r.path.toList
        rw [hc] at hhead
        exact Bool.eq_false_iff.mp (by simpa using hhead)
      rwa [ne_eq, hstays, not_not] at hends
  · rintro ⟨hpath, query, hwhole, hquery⟩
    have hall : ∀ c ∈ path.toList, stays c = true := fun c hc => (hstays c).mpr (hpath c hc)
    have hnone : query.takeWhile stays = [] := by
      cases query with
      | nil => rfl
      | cons c query =>
        exact List.takeWhile_cons_of_neg fun h => (hstays c).mp h (hquery c rfl)
    rw [← String.toList_inj, hplain, hwhole, List.takeWhile_append_of_pos hall, hnone,
      List.append_nil]

end Request

namespace Route

theorem ofPath?_eq_some_iff {route : Route} {path : String} :
    ofPath? path = some route ↔ path = route.path ∧ route.IsProper := by
  have hjoined {parts : List String} (h : Text.splitAtChar '/' path = parts) :
      path = String.ofList (['/'].intercalate (parts.map String.toList)) := by
    rw [← (Text.splitAtChar_eq_iff.mp h).2.2, String.ofList_toList]
  constructor
  · intro h
    unfold ofPath? at h
    split at h
    next hparts => cases h; exact ⟨hjoined hparts, trivial⟩
    next hparts => cases h; exact ⟨hjoined hparts, trivial⟩
    next encoded hparts =>
      split at h
      next => cases h
      next hne =>
        cases h
        have hslash := (Text.splitAtChar_eq_iff.mp hparts).2.1 encoded (by simp)
        have hpath : path = "/admin/throttle/" ++ encoded := by
          rw [hjoined hparts, ← String.toList_inj]
          simp [List.intercalate]
        exact ⟨hpath, by simpa using hne, hslash⟩
    next hparts => cases h; exact ⟨hjoined hparts, trivial⟩
    next hparts => cases h; exact ⟨hjoined hparts, trivial⟩
    next => cases h
  · rintro ⟨rfl, hproper⟩
    cases route with
    | status => decide
    | throttle => decide
    | budget encoded =>
      obtain ⟨hne, hslash⟩ : IsSegment encoded := hproper
      have hparts : Text.splitAtChar '/' ("/admin/throttle/" ++ encoded) =
          ["", "admin", "throttle", encoded] :=
        Text.splitAtChar_eq_iff.mpr ⟨by simp, by simp [hslash], by simp [List.intercalate]⟩
      change ofPath? ("/admin/throttle/" ++ encoded) = _
      rw [ofPath?, hparts]
      simp [hne]
    | burstInterval => decide
    | sessions => decide

end Route

theorem Framework.routeOf_eq_ok_iff {r : Request} {route : Route} :
    routeOf r = .ok route ↔ r.Asks route := by
  constructor
  · intro h
    unfold routeOf at h
    split at h
    next => cases h
    next found hfound =>
      obtain ⟨hpath, hproper⟩ := Route.ofPath?_eq_some_iff.mp hfound
      split at h
      next hallowed =>
        cases h
        exact ⟨Request.plainPath_eq_iff.mp hpath, hproper, hallowed⟩
      next => cases h
  · rintro ⟨hpath, hproper, hallowed⟩
    rw [routeOf, Request.plainPath_eq_iff.mpr hpath, Route.ofPath?_eq_some_iff.mpr ⟨rfl, hproper⟩]
    exact if_pos hallowed

namespace Request

section Bodies

variable {r : Request}

theorem isJson_parse?_of_isJson (h : r.IsJson) :
    ((r.header? "content-type").bind MediaType.parse?).any MediaType.isJson = true := by
  rw [header?_eq_some_iff.mpr h]
  decide

/-- An integer that a body carries is read. -/
theorem read_of_carries {field : String} {v least most : Int}
    (h : r.Carries (.object [(field, .number v)])) (hfield : ∀ c ∈ field.toList, Json.IsBare c)
    (hshort : field.toList.length < 1000) (hleast : least ≤ v) (hmost : v ≤ most)
    (hsize : v.natAbs < UInt64.size) :
    r.read (.object field (.integer least most)) = .ok v := by
  -- The limit is far behind the longest number of 64 bits.
  have hlength : ¬ bodyLimit < r.body.length := by
    have hobject := Json.Read.length_ofText_object_le hfield hsize
    rw [← h.body] at hobject
    have hlimit : bodyLimit = 2097152 := rfl
    omega
  rw [read, if_pos (isJson_parse?_of_isJson h.json), if_neg hlength, h.body,
    Json.Read.whole_object hfield hleast hmost hsize]

theorem read_of_isOversized {α : Type} (h : r.IsOversized) (value : Json.Read α) :
    r.read value = .error 413 := by
  rw [read, if_pos (isJson_parse?_of_isJson h.json)]
  exact if_pos h.length

end Bodies

end Request

namespace Framework

variable (r : Request)

theorem standard_route : standard.route r = routeOf r := by rw [standard]

theorem standard_budget : standard.budget r = (r.read (.object "bytes_per_second"
    (.integer Int64.minValue.toInt Int64.maxValue.toInt))).map Int64.ofInt := rfl

theorem standard_burst : standard.burst r = (r.read (.object "ms"
    (.integer 0 (UInt64.size - 1)))).map fun ms : Int => .ofNat ms.toNat := rfl

theorem standard_segment (text : String) :
    standard.segment (Text.Percent.encode text) = .ok text := by
  simp only [standard, Text.Percent.decode?_encode]

/-- The framework behaves as one has to. -/
theorem standard_lawful : standard.Lawful where
  field _ _ _ := Request.header?_eq_some_iff
  route r route := by
    rw [standard_route]
    exact routeOf_eq_ok_iff
  segment := standard_segment
  budget r value h := by
    have hfield : ∀ c ∈ "bytes_per_second".toList, Json.IsBare c :=
      List.all_iff_forall_prop.mp (by decide)
    have hleast := value.minValue_le_toInt
    have hmost := value.toInt_le
    have hsize : value.toInt.natAbs < UInt64.size := by
      have hcount : UInt64.size = 2 ^ 64 := rfl
      rw [Int64.toInt_minValue] at hleast
      rw [Int64.toInt_maxValue] at hmost
      omega
    rw [standard_budget, Request.read_of_carries h hfield (by decide) hleast hmost hsize]
    exact congrArg Except.ok value.ofInt_toInt
  burst r ms h := by
    have hfield : ∀ c ∈ "ms".toList, Json.IsBare c := List.all_iff_forall_prop.mp (by decide)
    have hlt := ms.toNat_lt_size
    rw [standard_burst,
      Request.read_of_carries h hfield (by decide) (by omega) (by omega) (by omega)]
    exact congrArg Except.ok ms.ofNat_toNat
  oversized r h := by
    rw [standard_budget, standard_burst, Request.read_of_isOversized h,
      Request.read_of_isOversized h]
    exact ⟨rfl, rfl⟩

end Framework

end HttpRelay.Admin
