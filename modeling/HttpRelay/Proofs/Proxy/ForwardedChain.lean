import HttpRelay.Proofs.Net.AddressText
import HttpRelay.Proofs.Proxy.FieldRewriting
import HttpRelay.Proofs.Text.Elements

/-!
# The chain of addresses

A request comes with the addresses that it went through, in any number of X-Forwarded-For fields,
and is sent on with one. The relay continues the chain of the first field only and removes them
all, so that the addresses of the others are lost.

* `Headers.elements`: the elements that the fields with a name list;
* `getAll_forwardedFor`: there is one field;
* `elements_forwardedFor`: it lists the addresses of the first field received, and the client's;
* `elements_forwardedFor_eq_iff`: when these are all addresses received.
-/

namespace HttpRelay.Http.Headers

variable (h : Headers) {dropped : List String} {added : List Field} {name : String}

/-- The elements that the fields with a name list, in order. -/
def elements (h : Headers) (name : String) : List String :=
  (h.getAll name).flatMap Text.listElements

/-- What an edit leaves under a name that it takes out: the fields it adds. -/
theorem getAll_edit_of_mem (hdropped : name ∈ dropped) :
    (h.edit dropped added).getAll name = (added.filter (isNamed name)).map Field.value := by
  have hnone : (h.fields.filter fun field => !dropped.any (sameName field.name)).filter
      (isNamed name) = [] := by
    refine List.filter_eq_nil_iff.mpr fun field hfield hnamed => ?_
    have hstays := (List.mem_filter.mp hfield).2
    rw [Bool.not_eq_true', List.any_eq_false] at hstays
    exact hstays name hdropped hnamed
  rw [getAll, edit, List.filter_append, hnone, List.nil_append]

/-- Every field lists something, if only the empty text. -/
theorem elements_eq_nil_iff {values : List String} :
    values.flatMap Text.listElements = [] ↔ values = [] := by
  rw [List.flatMap_eq_nil_iff]
  constructor
  · intro hnone
    refine List.eq_nil_iff_forall_not_mem.mpr fun value hvalue => ?_
    exact Text.listElements_ne_nil value (hnone value hvalue)
  · rintro rfl
    simp

end HttpRelay.Http.Headers

namespace HttpRelay.Proxy

open Http (BodyKind Headers RequestHead sameName)

section Chain

variable (head : RequestHead) (kind : BodyKind) (key : Option String) (client : Net.IpAddress)

/-- There is one chain of addresses in a forwarded head. -/
theorem getAll_forwardedFor :
    (forwardedRequest head kind key client).headers.getAll "X-Forwarded-For" =
      [forwardedChain head client] := by
  -- of the relay's own fields, only the last one has the name
  have hnone : (framingFields kind ++ upgradeFields key).filter
      (Headers.isNamed "X-Forwarded-For") = [] := by
    refine List.filter_eq_nil_iff.mpr fun field hfield => ?_
    rw [Headers.isNamed]
    rcases List.mem_append.mp hfield with hfield | hfield
    · rw [name_of_mem_framingFields hfield]
      decide
    · exact (by decide : ∀ name ∈ ["Sec-WebSocket-Key", "Connection", "Upgrade"],
        ¬ sameName name "X-Forwarded-For" = true) _ (name_of_mem_upgradeFields hfield)
  have hown : Headers.isNamed "X-Forwarded-For"
      ⟨"X-Forwarded-For", forwardedChain head client⟩ = true :=
    Http.sameName_iff.mpr rfl
  rw [headers_forwardedRequest, Headers.getAll_edit_of_mem _ (by simp [replacedNames]),
    addedFields, List.filter_append, hnone, List.nil_append, List.filter_cons_of_pos hown]
  rfl

variable {head}

/-- A chain that no Connection field lists is looked up in the fields received. -/
theorem forwardedChain_eq (hlisted : head.headers.lists "X-Forwarded-For" = false) :
    forwardedChain head client =
      match head.headers.getAll "X-Forwarded-For" with
      | [] => client.display
      | chain :: _ => chain ++ ", " ++ client.display := by
  have hsame : head.headers.stripHopByHop.getAll "x-forwarded-for" =
      head.headers.getAll "X-Forwarded-For" := by
    have hspelling : head.headers.stripHopByHop.getAll "x-forwarded-for" =
        head.headers.stripHopByHop.getAll "X-Forwarded-For" := by
      have hnamed : Headers.isNamed "x-forwarded-for" = Headers.isNamed "X-Forwarded-For" :=
        funext fun field => sameName_forwarded field.name
      rw [Headers.getAll, Headers.getAll, hnamed]
    rw [hspelling, Headers.getAll_stripHopByHop, if_neg]
    rw [Headers.mem_connectionNames_iff, hlisted]
    decide
  rw [forwardedChain, Headers.get?, hsame]
  cases head.headers.getAll "X-Forwarded-For" <;> rfl

/-- A forwarded head lists the addresses of the first field received, and the client's. -/
theorem elements_forwardedFor (hlisted : head.headers.lists "X-Forwarded-For" = false) :
    (forwardedRequest head kind key client).headers.elements "X-Forwarded-For" =
      ((head.headers.getAll "X-Forwarded-For").take 1).flatMap Text.listElements ++
        [client.display] := by
  have hcomma := Net.IpAddress.comma_not_mem_display client
  have hblank := Net.IpAddress.not_isBlank_of_mem_display client
  rw [Headers.elements, getAll_forwardedFor, forwardedChain_eq client hlisted,
    List.flatMap_singleton]
  cases head.headers.getAll "X-Forwarded-For" with
  | nil => simpa using Text.listElements_element hcomma hblank
  | cons chain others => simpa using Text.listElements_append_element hcomma hblank chain

/-- A forwarded head has one chain of addresses, which continues that of the first field received.
It continues all that were received exactly if there is no second field. -/
theorem elements_forwardedFor_eq_iff (hlisted : head.headers.lists "X-Forwarded-For" = false) :
    ((forwardedRequest head kind key client).headers.getAll "X-Forwarded-For").length = 1 ∧
      (forwardedRequest head kind key client).headers.elements "X-Forwarded-For" =
        ((head.headers.getAll "X-Forwarded-For").take 1).flatMap Text.listElements ++
          [client.display] ∧
      ((forwardedRequest head kind key client).headers.elements "X-Forwarded-For" =
          head.headers.elements "X-Forwarded-For" ++ [client.display] ↔
        (head.headers.getAll "X-Forwarded-For").length ≤ 1) := by
  have hfirst := elements_forwardedFor kind key client hlisted
  refine ⟨by rw [getAll_forwardedFor, List.length_singleton], hfirst, ?_⟩
  -- what is lost are the elements behind the first field
  have hlost : head.headers.elements "X-Forwarded-For" =
      ((head.headers.getAll "X-Forwarded-For").take 1).flatMap Text.listElements ++
        ((head.headers.getAll "X-Forwarded-For").drop 1).flatMap Text.listElements := by
    rw [← List.flatMap_append, List.take_append_drop, Headers.elements]
  rw [hfirst, List.append_cancel_right_eq, hlost, List.self_eq_append_right,
    Headers.elements_eq_nil_iff, List.drop_eq_nil_iff]

end Chain

/-- The addresses of a single field are kept, and the client's comes last. -/
theorem elements_forwardedFor_single_field :
    let head : RequestHead := ⟨"GET", "/", 1,
      ⟨[⟨"Connection", "close"⟩, ⟨"x-forwarded-for", "10.0.0.9,10.0.0.8"⟩]⟩⟩
    head.headers.lists "X-Forwarded-For" = false ∧
      (forwardedRequest head .empty none (.v4 10 1 2 3)).headers.elements "X-Forwarded-For" =
        ["10.0.0.9", "10.0.0.8", "10.1.2.3"] := by
  intro head
  have hlisted : head.headers.lists "X-Forwarded-For" = false := by decide
  refine ⟨hlisted, ?_⟩
  rw [(elements_forwardedFor_eq_iff .empty none (.v4 10 1 2 3) hlisted).2.2.mpr (by decide)]
  decide

/-- The addresses of a second field are lost. -/
theorem elements_forwardedFor_second_field :
    ∃ head : RequestHead,
      (RequestHead.parse (Bytes.ofText
        "GET / HTTP/1.1\r\nX-Forwarded-For: 10.0.0.9\r\nX-Forwarded-For: 10.0.0.8\r\n\r\n")
          ).toOption = some head ∧
      head.headers.lists "X-Forwarded-For" = false ∧
      head.headers.elements "X-Forwarded-For" = ["10.0.0.9", "10.0.0.8"] ∧
      (forwardedRequest head .empty none (.v4 10 1 2 3)).headers.elements "X-Forwarded-For" =
        ["10.0.0.9", "10.1.2.3"] := by
  refine ⟨⟨"GET", "/", 1,
    ⟨[⟨"X-Forwarded-For", "10.0.0.9"⟩, ⟨"X-Forwarded-For", "10.0.0.8"⟩]⟩⟩, ?_, ?_, ?_, ?_⟩
  · decide +kernel
  · decide
  · decide
  · decide

end HttpRelay.Proxy
