import HttpRelay.Proofs.Http.HopByHop
import HttpRelay.Proxy.HeadForwarding

/-!
# Fields of forwarded requests

The relay rewrites the fields of a request in small edits. Together they are one edit of the
list: the fields of one connection and those with a replaced name go, everything else stays as it
is and where it is, and the relay's own fields come last.

* `Headers.edit`: fields taken out by name, and fields added at the end;
* `Headers.edit_edit`: an edit after an edit;
* `replacedNames`, `addedFields`: what the relay takes out and adds;
* `headers_forwardedRequest`: the edits as one;
* `forwardedRequest_eq`: the head that is sent, and which fields of one connection it has.
-/

namespace HttpRelay.Http.Headers

variable (h : Headers) {dropped dropped' : List String} {added added' : List Field}
  {name value : String}

/-- Take out the fields with some names, and add fields at the end. -/
def edit (h : Headers) (dropped : List String) (added : List Field) : Headers :=
  { fields := h.fields.filter (fun field => !dropped.any (sameName field.name)) ++ added }

theorem edit_nil_left : h.edit [] added = { fields := h.fields ++ added } := by
  rw [edit, List.filter_eq_self.mpr fun field _ => by rw [List.any_nil, Bool.not_false]]

theorem edit_nil : h.edit [] [] = h := by
  rw [edit_nil_left, List.append_nil]

theorem remove_eq_edit : h.remove name = h.edit [name] [] := by
  simp [remove, edit, isNamed]

theorem append_eq_edit : h.append name value = h.edit [] [⟨name, value⟩] :=
  h.edit_nil_left.symm

theorem set_eq_edit : h.set name value = h.edit [name] [⟨name, value⟩] := by
  simp [set, append, remove, edit, isNamed]

/-- An edit after an edit is one edit, unless it takes out what the first one added. -/
theorem edit_edit
    (hkept : ∀ field ∈ added, ∀ other ∈ dropped', sameName field.name other = false) :
    (h.edit dropped added).edit dropped' added' =
      h.edit (dropped ++ dropped') (added ++ added') := by
  have hadded : added.filter (fun field => !dropped'.any (sameName field.name)) = added :=
    List.filter_eq_self.mpr fun field hfield => by simp_all
  simp only [edit, List.filter_append, List.filter_filter, hadded, List.any_append, Bool.not_or,
    Bool.and_comm, List.append_assoc]

/-- An edit leaves a name alone that it neither takes out nor adds. -/
theorem getAll_edit (hdropped : ∀ other ∈ dropped, sameName name other = false)
    (hadded : ∀ field ∈ added, sameName field.name name = false) :
    (h.edit dropped added).getAll name = h.getAll name := by
  have hnone : added.filter (isNamed name) = [] :=
    List.filter_eq_nil_iff.mpr fun field hfield => by simp [isNamed, hadded field hfield]
  rw [getAll, edit, List.filter_append, hnone, List.append_nil, List.filter_filter, getAll]
  congr 1
  refine List.filter_congr fun field _ => ?_
  by_cases hnamed : isNamed name field = true
  · -- a field with the name has none of the names taken out
    have hstays : dropped.any (sameName field.name) = false :=
      List.any_eq_false.mpr fun other hother => by
        rw [sameName_congr hnamed, hdropped other hother]
        exact Bool.false_ne_true
    rw [hstays, Bool.not_false, Bool.and_true]
  · rw [Bool.eq_false_iff.mpr hnamed, Bool.false_and]

end HttpRelay.Http.Headers

namespace HttpRelay.Proxy

open Http (BodyKind Field Headers RequestHead sameName)

section Parts

variable (kind : BodyKind) (key : Option String)

/-- The names whose fields go with the framing of a request. -/
def framingNames : List String := if kind = .chunked then ["content-length"] else []

/-- The fields that frame a body that is coded anew. -/
def framingFields : List Field :=
  if kind = .chunked then [⟨"Transfer-Encoding", "chunked"⟩] else []

/-- The names whose fields go with a client's wish for a WebSocket. -/
def upgradeNames : List String :=
  if key.isSome then ["sec-websocket-extensions", "Sec-WebSocket-Key"] else []

/-- The fields that ask for a WebSocket. -/
def upgradeFields : List Field :=
  match key with
  | some key => [⟨"Sec-WebSocket-Key", key⟩, ⟨"Connection", "Upgrade"⟩, ⟨"Upgrade", "websocket"⟩]
  | none => []

/-- The names whose fields the relay takes out of a request, besides those of one connection. -/
def replacedNames : List String :=
  ["expect"] ++ framingNames kind ++ upgradeNames key ++ ["X-Forwarded-For"]

end Parts

/-- The addresses that a request came through, with the client's last. A chain that is listed in
a Connection field does not count. -/
def forwardedChain (head : RequestHead) (client : Net.IpAddress) : String :=
  match head.headers.stripHopByHop.get? "x-forwarded-for" with
  | some chain => chain ++ ", " ++ client.display
  | none => client.display

/-- The fields that the relay adds to a request. -/
def addedFields (head : RequestHead) (kind : BodyKind) (key : Option String)
    (client : Net.IpAddress) : List Field :=
  framingFields kind ++ upgradeFields key ++ [⟨"X-Forwarded-For", forwardedChain head client⟩]

section Edits

variable (h : Headers) {kind : BodyKind} {key : Option String} {field : Field} {name : String}

theorem eq_of_mem_framingNames (hname : name ∈ framingNames kind) : name = "content-length" := by
  rw [framingNames, List.mem_ite_nil_right, List.mem_singleton] at hname
  exact hname.2

theorem name_of_mem_framingFields (hfield : field ∈ framingFields kind) :
    field.name = "Transfer-Encoding" := by
  rw [framingFields, List.mem_ite_nil_right, List.mem_singleton] at hfield
  rw [hfield.2]

theorem mem_of_mem_upgradeNames (hname : name ∈ upgradeNames key) :
    name ∈ ["sec-websocket-extensions", "Sec-WebSocket-Key"] := by
  rw [upgradeNames, List.mem_ite_nil_right] at hname
  exact hname.2

theorem name_of_mem_upgradeFields (hfield : field ∈ upgradeFields key) :
    field.name ∈ ["Sec-WebSocket-Key", "Connection", "Upgrade"] := by
  cases key with
  | none => cases hfield
  | some key => exact List.mem_map_of_mem (f := Field.name) hfield

/-- The framing fields are edited only for a body that is coded anew. -/
theorem reframe_eq_edit : reframe kind h = h.edit (framingNames kind) (framingFields kind) := by
  rw [reframe, framingNames, framingFields]
  split
  · rw [Headers.append_eq_edit, Headers.remove_eq_edit, Headers.edit_edit _ (by simp)]
    rfl
  · rw [Headers.edit_nil]

/-- To ask for a WebSocket takes out the client's wishes and adds the relay's. -/
theorem askUpgrade_eq_edit : askUpgrade key h = h.edit (upgradeNames key) (upgradeFields key) := by
  cases key with
  | none => exact h.edit_nil.symm
  | some key =>
    rw [askUpgrade, Headers.append_eq_edit, Headers.append_eq_edit, Headers.set_eq_edit,
      Headers.remove_eq_edit, Headers.edit_edit _ (by simp), Headers.edit_edit _ (by simp),
      Headers.edit_edit _ (by simp)]
    rfl

end Edits

/-- The names taken out before the chain of addresses is looked at. -/
theorem earlierNames_subset (kind : BodyKind) (key : Option String) :
    ["expect"] ++ framingNames kind ++ upgradeNames key ⊆
      ["expect", "content-length", "sec-websocket-extensions", "Sec-WebSocket-Key"] := by
  intro name hname
  rcases List.mem_append.mp hname with hname | hname
  · rcases List.mem_append.mp hname with hname | hname
    · rw [List.mem_singleton.mp hname]
      decide
    · rw [eq_of_mem_framingNames hname]
      decide
  · exact List.mem_cons_of_mem _ (List.mem_cons_of_mem _ (mem_of_mem_upgradeNames hname))

/-- The chain of addresses is looked up and set under one name, in two spellings. -/
theorem sameName_forwarded (name : String) :
    sameName name "x-forwarded-for" = sameName name "X-Forwarded-For" := by
  have hlower : Text.asciiLower "x-forwarded-for" = Text.asciiLower "X-Forwarded-For" := by decide
  rw [sameName, sameName, Text.eqIgnoreCase, Text.eqIgnoreCase, hlower]

section Forwarding

variable (head : RequestHead) (kind : BodyKind) (key : Option String) (client : Net.IpAddress)

/-- The edits of a request, one after the other, are one edit of what the strip leaves. -/
theorem headers_forwardedRequest :
    (forwardedRequest head kind key client).headers =
      head.headers.stripHopByHop.edit (replacedNames kind key)
        (addedFields head kind key client) := by
  -- no edit takes out what an earlier one has added
  have hcoding : ∀ field ∈ framingFields kind, ∀ other ∈ upgradeNames key,
      sameName field.name other = false := by
    intro field hfield other hother
    rw [name_of_mem_framingFields hfield]
    exact (by decide : ∀ other ∈ ["sec-websocket-extensions", "Sec-WebSocket-Key"],
      sameName "Transfer-Encoding" other = false) other (mem_of_mem_upgradeNames hother)
  have hadded : ∀ field ∈ framingFields kind ++ upgradeFields key,
      sameName field.name "X-Forwarded-For" = false := by
    intro field hfield
    rcases List.mem_append.mp hfield with hfield | hfield
    · rw [name_of_mem_framingFields hfield]
      decide
    · exact (by decide : ∀ name ∈ ["Sec-WebSocket-Key", "Connection", "Upgrade"],
        sameName name "X-Forwarded-For" = false) _ (name_of_mem_upgradeFields hfield)
  have hbefore : askUpgrade key (reframe kind (head.headers.stripHopByHop.remove "expect")) =
      head.headers.stripHopByHop.edit (["expect"] ++ framingNames kind ++ upgradeNames key)
        (framingFields kind ++ upgradeFields key) := by
    rw [askUpgrade_eq_edit, reframe_eq_edit, Headers.remove_eq_edit, Headers.edit_edit _ hcoding,
      Headers.edit_edit _ (by simp), List.nil_append, List.append_assoc]
  -- the last edit looks at the chain of addresses, which the others leave alone
  have hchain : (head.headers.stripHopByHop.edit
        (["expect"] ++ framingNames kind ++ upgradeNames key)
        (framingFields kind ++ upgradeFields key)).getAll "x-forwarded-for" =
      head.headers.stripHopByHop.getAll "x-forwarded-for" := by
    refine Headers.getAll_edit _ (fun other hother => ?_) fun field hfield => ?_
    · have hnames : ∀ other ∈ ["expect", "content-length", "sec-websocket-extensions",
          "Sec-WebSocket-Key"], sameName "x-forwarded-for" other = false := by decide
      refine hnames other (earlierNames_subset kind key hother)
    · rw [sameName_forwarded]
      exact hadded field hfield
  rw [forwardedRequest, addForwarded]
  simp only [hbefore, Headers.get?, hchain]
  rw [Headers.set_eq_edit, Headers.edit_edit _ (by simpa using hadded)]
  rfl

/-- A forwarded request is the request received, with every field in its place that neither
concerns one connection nor has a replaced name, and with the relay's fields behind them. It has
no field of one connection but those among the relay's, and a second strip removes nothing. -/
theorem forwardedRequest_eq :
    forwardedRequest head kind key client =
        { head with
          headers :=
            { fields :=
                head.headers.fields.filter (fun field =>
                    !head.headers.isHopByHop field.name &&
                      !(replacedNames kind key).any (sameName field.name))
                  ++ addedFields head kind key client } } ∧
      ((forwardedRequest head kind key client).headers.fields.filter fun field =>
          head.headers.isHopByHop field.name) =
        (addedFields head kind key client).filter (fun field =>
          head.headers.isHopByHop field.name) ∧
      ∀ h : Headers, h.stripHopByHop.stripHopByHop = h.stripHopByHop := by
  have hfields : (forwardedRequest head kind key client).headers =
      { fields :=
          head.headers.fields.filter (fun field =>
              !head.headers.isHopByHop field.name &&
                !(replacedNames kind key).any (sameName field.name))
            ++ addedFields head kind key client } := by
    rw [headers_forwardedRequest, Headers.edit, Headers.fields_stripHopByHop, List.filter_filter]
    simp only [Bool.and_comm]
  refine ⟨?_, ?_, Headers.stripHopByHop_stripHopByHop⟩
  · rw [← hfields]
    rfl
  · -- of the fields that stay, none concerns one connection
    rw [hfields, List.filter_append, List.filter_filter, List.filter_eq_nil_iff.mpr,
      List.nil_append]
    intro field _
    simp +contextual

/-- A listed field goes, in whatever case it is written, and the chain of addresses grows. -/
example :
    (forwardedRequest ⟨"GET", "/", 1, ⟨[⟨"Connection", "close, X-Token"⟩, ⟨"x-token", "1"⟩,
        ⟨"X-Forwarded-For", "10.0.0.9"⟩, ⟨"Accept", "text/html"⟩]⟩⟩
      .empty none (.v4 10 1 2 3)).headers.fields =
      [⟨"Accept", "text/html"⟩, ⟨"X-Forwarded-For", "10.0.0.9, 10.1.2.3"⟩] := by
  decide

end Forwarding

end HttpRelay.Proxy
