import HttpRelay.Chunked.Writer

/-!
# Uses of a chunked writer

What a sequence of calls puts on the wire. Up to the first close each write is a chunk of its own,
or nothing if it is empty; behind it every call but a flush is refused, and nothing is put on the
wire any more.

* `calls_finish`: the results of a sequence of calls with a close;
* `wire_accepted`: the chunks that the calls before a close put on the wire.
-/

namespace HttpRelay.Chunked.Writer

namespace Call

/-- The data that a call writes. -/
def data : Call → Bytes
  | write data => data
  | _ => []

/-- The result of a call before the first close. -/
def accepted : Call → Except Error Bytes
  | write data => .ok (if data.isEmpty then [] else chunk data)
  | flush => .ok []
  | finish => .ok terminator

/-- The result of a call behind the first close. -/
def refused : Call → Except Error Bytes
  | flush => .ok []
  | _ => .error .finished

end Call

/-- What calls with these results put on the wire. -/
def wire (results : List (Except Error Bytes)) : Bytes :=
  results.flatMap fun result => result.toOption.getD []

@[simp] theorem wire_append (results more : List (Except Error Bytes)) :
    wire (results ++ more) = wire results ++ wire more := List.flatMap_append

/-- Behind the first close every call is refused. -/
theorem calls_finished (cs : List Call) :
    calls { finished := true } cs = (cs.map Call.refused, { finished := true }) := by
  induction cs with
  | nil => rfl
  | cons c cs ih =>
    have hcall : call { finished := true } c = (c.refused, { finished := true }) := by
      cases c <;> rfl
    rw [calls, hcall]
    simp only [ih, List.map_cons]

/-- A sequence of calls, split at its first close. -/
theorem calls_finish (before after : List Call) (hfirst : .finish ∉ before) :
    calls {} (before ++ .finish :: after) =
      (before.map Call.accepted ++ .ok terminator :: after.map Call.refused,
        { finished := true }) := by
  -- The writer stays open up to the close, so the induction needs no other state.
  induction before with
  | nil =>
    rw [List.nil_append, calls]
    change (.ok terminator :: (calls { finished := true } after).1,
      (calls { finished := true } after).2) = _
    rw [calls_finished]
    rfl
  | cons c before ih =>
    have hopen : call {} c = (c.accepted, {}) := by
      cases c with
      | write data =>
        by_cases hdata : data.isEmpty = true <;> simp [call, write, Call.accepted, hdata]
      | flush => rfl
      | finish => exact absurd List.mem_cons_self hfirst
    rw [List.cons_append, calls, hopen]
    simp only [ih fun hmem => hfirst (List.mem_cons_of_mem c hmem), List.map_cons,
      List.cons_append]

theorem wire_refused (cs : List Call) : wire (cs.map Call.refused) = [] := by
  induction cs with
  | nil => rfl
  | cons c cs ih =>
    rw [List.map_cons, ← List.singleton_append, wire_append, ih, List.append_nil]
    cases c <;> rfl

/-- The chunks of the writes among some calls. -/
def chunks (cs : List Call) : List Bytes := (cs.map Call.data).filter (!·.isEmpty)

theorem ne_nil_of_mem_chunks {cs : List Call} {data : Bytes} (h : data ∈ chunks cs) :
    data ≠ [] := by
  obtain ⟨-, hsome⟩ := List.mem_filter.mp h
  simpa using hsome

theorem mem_of_mem_chunks {cs : List Call} {data : Bytes} (h : data ∈ chunks cs) :
    .write data ∈ cs := by
  obtain ⟨hmem, hsome⟩ := List.mem_filter.mp h
  obtain ⟨c, hc, rfl⟩ := List.mem_map.mp hmem
  cases c with
  | write data => exact hc
  | _ => simp [Call.data] at hsome

/-- The chunks hold all that was written. -/
theorem flatten_chunks (cs : List Call) : (chunks cs).flatten = cs.flatMap Call.data := by
  induction cs with
  | nil => rfl
  | cons c cs ih =>
    rw [List.flatMap_cons, ← ih, chunks, List.map_cons, List.filter_cons]
    split
    · rfl
    next hempty =>
      have hnone : c.data = [] := by simpa using hempty
      rw [hnone, List.nil_append]
      rfl

/-- The calls before a close put one chunk after another on the wire. -/
theorem wire_accepted {cs : List Call} (h : .finish ∉ cs) :
    wire (cs.map Call.accepted) = (chunks cs).flatMap chunk := by
  induction cs with
  | nil => rfl
  | cons c cs ih =>
    -- An empty write has no chunk: neither side has anything for it.
    have hone : wire [c.accepted] = (chunks [c]).flatMap chunk := by
      cases c with
      | write data =>
        by_cases hdata : data.isEmpty = true
        · simp [wire, Call.accepted, chunks, Call.data, hdata, Except.toOption]
        · simp [wire, Call.accepted, chunks, Call.data, hdata, Except.toOption]
      | flush => rfl
      | finish => exact absurd List.mem_cons_self h
    have hrest := ih fun hmem => h (List.mem_cons_of_mem c hmem)
    have hchunks : chunks (c :: cs) = chunks [c] ++ chunks cs := by
      rw [chunks, ← List.singleton_append, List.map_append, List.filter_append]
      rfl
    rw [List.map_cons, ← List.singleton_append, wire_append, hone, hrest, hchunks,
      List.flatMap_append]

end HttpRelay.Chunked.Writer
