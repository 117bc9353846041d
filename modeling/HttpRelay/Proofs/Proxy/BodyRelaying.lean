import HttpRelay.Proofs.Proxy.BodyDelimiting
import HttpRelay.Proxy.BodyRelay

/-!
# Relaying one body

A relay takes exactly one body off its input, whatever the framing, whatever was read ahead, and
whatever follows; and it puts one body on the wire that says the same.

* `BodyRelay.Owes`: what a relay has still to carry over;
* `BodyRelay.pass_carries`: one pass, by the framing of the body;
* `BodyRelay.runWithin_delivers`: a whole relay, by induction on its passes;
* `BodyRelay.runWithin_close`: the same while the input is open;
* `BodyRelay.run_relays`: what this says about input and wire.
-/

namespace HttpRelay.Proxy

namespace BodyRelay

variable {kind : Http.BodyKind} {relay : BodyRelay} {input : Buffered} {body rest : Delimited}

/-- A relay of a kind whose input has arrived to its end, and the body that it has to carry
over. -/
inductive Owes : Http.BodyKind → BodyRelay → Buffered → Delimited → Prop
  | done (input : Buffered) : Owes .empty .done input (delimit .empty input.pending)
  | counted {input : Buffered} (length left : Nat) (closed : input.feed.closed = true) :
      Owes (.contentLength length) (.counted left) input
        (delimit (.contentLength left) input.pending)
  | chunked {input : Buffered} {remaining : Nat} {d : Chunked.Decoded}
      (holds : Chunked.Reader.Holds { input, remaining } d) :
      Owes .chunked (.chunked remaining) input ⟨d.data, d.result.mapError .chunked⟩
  | untilClose {input : Buffered} (closed : input.feed.closed = true) :
      Owes .untilClose .untilClose input (delimit .untilClose input.pending)

/-- What a pass does with the body that the relay owes. -/
inductive Pass.Carries (kind : Http.BodyKind) (body : Delimited) (p : Pass) : Prop
  /-- It carries a piece over. -/
  | piece {rest : Delimited} (status : p.status = .ok false) (nonempty : p.payload ≠ [])
      (small : p.payload.length < UInt64.size) (wire : p.wire = coded kind p.payload)
      (delimited : body = rest.behind p.payload) (owes : Owes kind p.next p.input rest)
  /-- It carries the last piece over, or finds that there is none. -/
  | last (status : p.status = .ok true) (small : p.payload.length < UInt64.size)
      (wire : p.wire = coded kind p.payload ++ closing kind)
      (delimited : body = ⟨p.payload, .ok p.input.pending⟩)
  /-- It finds what is wrong with the body, and has nothing to carry over. -/
  | broken {error : Error} (status : p.status = .error (.failed error)) (payload : p.payload = [])
      (wire : p.wire = []) (result : body.result = .error error)
      (forwarded : kind ≠ .chunked → body.payload = [])

section Forward

variable (next : Nat → BodyRelay) (limit : Nat) (atEnd : Except (Halt Error) Bool)

/-- Some of what is pending is carried over. -/
theorem forward_some (hlimit : 0 < limit) (hpending : input.pending ≠ []) :
    ∃ k input', 0 < k ∧ k ≤ limit ∧ k ≤ input.pending.length ∧
      input'.pending = input.pending.drop k ∧ input'.feed.closed = input.feed.closed ∧
      forward next limit atEnd input =
        { next := next k, input := input', payload := input.pending.take k,
          wire := input.pending.take k, status := .ok false } := by
  obtain ⟨k, input', hk, hle, hlength, hread, hrest, hclosed⟩ :=
    Buffered.readSome_eq (ε := IoFailure) hlimit hpending
  refine ⟨k, input', hk, hle, hlength, hrest, hclosed, ?_⟩
  have hcount : (input.pending.take k).length = k := by
    rw [List.length_take]
    omega
  have hsome : ¬ (input.pending.take k).isEmpty = true := by
    rw [List.isEmpty_iff_length_eq_zero]
    omega
  rw [forward, hread]
  simp only [if_neg hsome, hcount]

/-- At the end of the input nothing is. -/
theorem forward_end (hpending : input.pending = []) (hclosed : input.feed.closed = true) :
    ∃ input', input'.pending = [] ∧
      forward next limit atEnd input = { next := next 0, input := input', status := atEnd } := by
  obtain ⟨input', hread, hrest⟩ :=
    Buffered.readSome_end (ε := IoFailure) (n := limit) hpending hclosed
  refine ⟨input', hrest, ?_⟩
  rw [forward, hread]
  rfl

end Forward

/-- A forward of some of a counted body, or of one without end, is a piece of it. -/
theorem Pass.Carries.of_forward {k : Nat} {bytes : Bytes} {p : Pass} (hk : 0 < k)
    (hsize : k ≤ passLength) (hlength : k ≤ bytes.length) (hkind : kind ≠ .chunked)
    (hstatus : p.status = .ok false) (hpayload : p.payload = bytes.take k)
    (hwire : p.wire = bytes.take k) (hbody : body = rest.behind (bytes.take k))
    (howes : Owes kind p.next p.input rest) : p.Carries kind body := by
  have hcount : p.payload.length = k := by
    rw [hpayload, List.length_take]
    omega
  refine .piece hstatus ?_ ?_ ?_ (by rw [hpayload, hbody]) howes
  · exact List.length_pos_iff.mp (by omega)
  · rw [hcount]
    exact Nat.lt_of_le_of_lt hsize (by decide)
  · rw [coded_eq_self hkind, hwire, hpayload]

/-- A piece that is not there is small enough to be coded. -/
theorem length_nil_lt : ([] : Bytes).length < UInt64.size := by decide

theorem pass_counted_succ (left : Nat) (input : Buffered) :
    pass (.counted (left + 1)) input =
      forward (fun n => .counted (left + 1 - n)) (min passLength (left + 1))
        (.error (.failed (.io .unexpectedEof))) input := rfl

/-- A pass of a counted body. -/
theorem pass_counted (length left : Nat) (hclosed : input.feed.closed = true) :
    (pass (.counted left) input).Carries (.contentLength length)
      (delimit (.contentLength left) input.pending) := by
  cases left with
  | zero =>
    refine .last rfl length_nil_lt rfl ?_
    rw [delimit, if_pos (Nat.zero_le _)]
    rfl
  | succ left =>
    by_cases hpending : input.pending = []
    · -- the input has ended, and the body has not
      obtain ⟨input', -, hrun⟩ := forward_end _ _ _ hpending hclosed
      rw [pass_counted_succ, hrun]
      have hshort : delimit (.contentLength (left + 1)) input.pending =
          ⟨[], .error (.io .unexpectedEof)⟩ := by
        rw [hpending, delimit, if_neg (by simp)]
      rw [hshort]
      exact .broken rfl rfl rfl rfl fun _ => rfl
    · -- what a pass carries over is no more than the body still has
      have hlimit : 0 < min passLength (left + 1) := by
        rw [passLength]
        omega
      obtain ⟨k, input', hk, hle, hlength, hrest, hclosed', hrun⟩ := forward_some
        (fun n => .counted (left + 1 - n)) (min passLength (left + 1))
        (.error (.failed (.io .unexpectedEof))) hlimit hpending
      rw [pass_counted_succ, hrun]
      refine .of_forward hk (by omega) hlength (by simp) rfl rfl rfl
        (delimit_contentLength_take (by omega) hlength) ?_
      rw [← hrest]
      exact .counted length _ (hclosed'.trans hclosed)

/-- A pass of a body without end. -/
theorem pass_untilClose (hclosed : input.feed.closed = true) :
    (pass .untilClose input).Carries .untilClose (delimit .untilClose input.pending) := by
  by_cases hpending : input.pending = []
  · obtain ⟨input', hrest, hrun⟩ := forward_end _ _ _ hpending hclosed
    rw [pass, hrun]
    refine .last rfl length_nil_lt rfl ?_
    rw [hpending, hrest]
    rfl
  · obtain ⟨k, input', hk, hle, hlength, hrest, hclosed', hrun⟩ := forward_some
      (fun _ => .untilClose) passLength (.ok true) (by decide) hpending
    have hbody : delimit .untilClose input.pending =
        (delimit .untilClose (input.pending.drop k)).behind (input.pending.take k) := by
      simp [delimit, Delimited.behind]
    rw [pass, hrun]
    refine .of_forward hk hle hlength (by simp) rfl rfl rfl hbody ?_
    rw [← hrest]
    exact .untilClose (hclosed'.trans hclosed)

/-- A pass of a chunked body. -/
theorem pass_chunked {remaining : Nat} {d : Chunked.Decoded}
    (h : Chunked.Reader.Holds { input, remaining } d) :
    (pass (.chunked remaining) input).Carries .chunked
      ⟨d.data, d.result.mapError .chunked⟩ := by
  rw [pass]
  rcases Chunked.Copy.pass_cases h with ⟨reader, hopen, hroom, hholds, hrun⟩ |
    ⟨reader, writer, hroom, hresult, hrun⟩ | ⟨reader, error, hresult, hrun⟩
  · rw [hrun]
    have hcount : (d.data.take Chunked.copyLength).length = Chunked.copyLength := by
      rw [List.length_take]
      omega
    -- the next pass starts with a reader that has not ended, as this one was left
    have hreader : reader = { input := reader.input, remaining := reader.remaining } := by
      rw [← hopen]
    rw [hreader] at hholds
    refine .piece rfl ?_ ?_ rfl ?_ (.chunked hholds)
    · refine List.length_pos_iff.mp ?_
      rw [hcount]
      decide
    · rw [hcount]
      decide
    · simp [Delimited.behind]
  · rw [hrun]
    refine .last rfl ?_ rfl ?_
    · exact Nat.lt_trans hroom (by decide)
    · rw [hresult]
      rfl
  · rw [hrun]
    refine .broken rfl rfl rfl ?_ fun hkind => absurd rfl hkind
    rw [hresult]
    rfl

theorem pass_carries (h : Owes kind relay input body) : (relay.pass input).Carries kind body := by
  cases h with
  | done => exact .last rfl length_nil_lt rfl rfl
  | counted length left hclosed => exact pass_counted length left hclosed
  | chunked hholds => exact pass_chunked hholds
  | untilClose hclosed => exact pass_untilClose hclosed

/-! ### Passes in a row -/

/-- A report behind passes whose payloads and wires are given last first. -/
def Report.behind (payloads wires : List Bytes) (report : Report) : Report :=
  { report with
    payload := payloads.reverse.flatten ++ report.payload
    wire := wires.reverse.flatten ++ report.wire
    result := report.result.map (totalLength payloads + ·) }

theorem runWithin_eq_behind (payloads wires : List Bytes) (relay : BodyRelay) (input : Buffered)
    (passes : Nat) :
    runWithin payloads wires relay input passes =
      (runWithin [] [] relay input passes).behind payloads wires := by
  -- both sides make the same pass, whose piece is then in front of the later ones
  induction passes generalizing payloads wires relay input with
  | zero => simp [runWithin, Report.behind, Except.map]
  | succ passes ih =>
    rw [runWithin, runWithin]
    split
    · rw [ih, ih [_] [_]]
      generalize runWithin [] [] _ _ passes = report
      rcases hresult : report.result with halt | n
      · simp [Report.behind, hresult, Except.map]
      · simp [Report.behind, hresult, Except.map]
        omega
    · simp [Report.behind, Except.map, Nat.add_comm]
    · simp [Report.behind, Except.map]

/-- What a relay does with the body that it owes. -/
inductive Report.Delivers (kind : Http.BodyKind) (body : Delimited) (report : Report) : Prop
  | whole (pieces : List Bytes) (small : ∀ piece ∈ pieces, piece.length < UInt64.size)
      (payload : report.payload = pieces.flatten)
      (wire : report.wire = pieces.flatMap (coded kind) ++ closing kind)
      (result : report.result = .ok report.payload.length)
      (delimited : body = ⟨report.payload, .ok report.input.pending⟩)
  | broken {error : Error} (result : report.result = .error (.failed error))
      (delimited : body.result = .error error)
      (forwarded : kind ≠ .chunked →
        report.payload = body.payload ∧ report.wire = body.payload)

/-- A piece, and then the rest of a body. -/
theorem Report.Delivers.behind {report : Report} {piece : Bytes} (h : report.Delivers kind rest)
    (hsmall : piece.length < UInt64.size) :
    (report.behind [piece] [coded kind piece]).Delivers kind (rest.behind piece) := by
  cases h with
  | whole pieces small payload wire result delimited =>
    refine .whole (piece :: pieces) ?_ ?_ ?_ ?_ ?_
    · intro other hother
      rcases List.mem_cons.mp hother with rfl | hother
      · exact hsmall
      · exact small other hother
    · simp [Report.behind, payload]
    · simp [Report.behind, wire]
    · simp [Report.behind, result, Except.map]
    · simp [Report.behind, delimited, Delimited.behind]
  | @broken error result delimited forwarded =>
    have hresult : (report.behind [piece] [coded kind piece]).result = .error (.failed error) := by
      simp [Report.behind, result, Except.map]
    refine .broken hresult delimited fun hkind => ?_
    obtain ⟨hpayload, hwire⟩ := forwarded hkind
    simp [Report.behind, Delimited.behind, hpayload, hwire, coded_eq_self hkind]

/-- A relay delivers the body that it owes, if it makes enough passes. -/
theorem runWithin_delivers (h : Owes kind relay input body) {passes : Nat}
    (hpasses : body.payload.length < passes) :
    (runWithin [] [] relay input passes).Delivers kind body := by
  -- each piece takes some of the payload, so that fewer passes do for what is left
  induction passes generalizing relay input body with
  | zero => omega
  | succ passes ih =>
    rw [runWithin]
    cases pass_carries h with
    | @piece rest status nonempty small wire delimited owes =>
      subst delimited
      have hpos := List.length_pos_iff.mpr nonempty
      rw [Delimited.behind, List.length_append] at hpasses
      simp only [status]
      rw [runWithin_eq_behind, wire]
      exact (ih owes (by omega)).behind small
    | last status small wire delimited =>
      simp only [status]
      refine .whole [(relay.pass input).payload] ?_ rfl ?_ ?_ ?_
      · simpa using small
      · simp [wire]
      · simp
      · simp [delimited]
    | broken status payload wire result forwarded =>
      simp only [status]
      refine .broken rfl result fun hkind => ?_
      simp [payload, wire, forwarded hkind]

/-! ### Open input -/

/-- The same pass when its input ends where it is. -/
def Pass.close (p : Pass) : Pass := { p with input := p.input.close }

/-- The same report when its input ends where it is. -/
def Report.close (report : Report) : Report := { report with input := report.input.close }

theorem forward_close {next : Nat → BodyRelay} {limit : Nat} {atEnd : Except (Halt Error) Bool}
    (h : (forward next limit atEnd input).status ≠ .error .starved) :
    forward next limit atEnd input.close = (forward next limit atEnd input).close := by
  rcases hread : (input.readSome limit : Except (Halt IoFailure) Bytes × Buffered) with
    ⟨answer, input'⟩
  have hanswer : answer ≠ .error .starved := by
    rintro rfl
    rw [forward, hread] at h
    exact h rfl
  rw [forward, forward, Buffered.readSome_close hread hanswer, hread]
  cases answer with
  | error halt => rfl
  | ok data =>
    dsimp only
    split <;> rfl

/-- A pass that does not starve is the same when the input ends. -/
theorem pass_close (h : (relay.pass input).status ≠ .error .starved) :
    relay.pass input.close = (relay.pass input).close := by
  cases relay with
  | done => rfl
  | counted left =>
    cases left with
    | zero => rfl
    | succ left => exact forward_close h
  | untilClose => exact forward_close h
  | chunked remaining =>
    have hcopy : (Chunked.Copy.pass { reader := { input, remaining } }).status ≠
        .error .starved := by
      intro hstarved
      rw [pass, hstarved] at h
      exact h rfl
    have hclose := Chunked.Copy.pass_close hcopy
    rw [Chunked.Copy.close, Chunked.Reader.close] at hclose
    rw [pass, pass, hclose]
    rfl

/-- A relay that does not starve is the same when the input ends. -/
theorem runWithin_close {payloads wires : List Bytes} {passes : Nat}
    (h : (runWithin payloads wires relay input passes).result ≠ .error .starved) :
    runWithin payloads wires relay input.close passes =
      (runWithin payloads wires relay input passes).close := by
  induction passes generalizing payloads wires relay input with
  | zero => rfl
  | succ passes ih =>
    rw [runWithin] at h
    have hpass : (relay.pass input).status ≠ .error .starved := by
      intro hstarved
      simp only [hstarved] at h
      exact h rfl
    rw [runWithin, runWithin, pass_close hpass]
    have hstatus : (relay.pass input).close.status = (relay.pass input).status := rfl
    rw [hstatus]
    split
    next hgoes =>
      simp only [hgoes] at h
      exact ih h
    · rfl
    · rfl

/-! ### A whole body -/

/-- One whole body was relayed. -/
structure Relayed (kind : Http.BodyKind) (input : Buffered) (report : Report) : Prop where
  /-- The body at the start of the input was seen, and what is behind it was not touched. -/
  seen : delimit kind input.pending = ⟨report.payload, .ok report.input.pending⟩
  /-- A body with the same payload was put on the wire, and nothing else. -/
  wire : delimit kind report.wire = ⟨report.payload, .ok []⟩

/-- What a relay does with an input. -/
structure Relays (kind : Http.BodyKind) (input : Buffered) (report : Report) : Prop where
  /-- A relay that succeeds has relayed one body, of as many bytes as it says. -/
  whole (n : Nat) : report.result = .ok n → report.payload.length = n ∧ Relayed kind input report
  /-- A counted body that is cut short is forwarded as far as it goes. -/
  cutShort (length : Nat) : kind = .contentLength length → input.feed.closed = true →
    input.pending.length < length →
    report.result = .error (.failed (.io .unexpectedEof)) ∧ report.payload = input.pending ∧
      report.wire = input.pending
  /-- A body that is there is relayed. -/
  succeeds (rest : Bytes) : input.feed.closed = true →
    (delimit kind input.pending).result = .ok rest → ∃ n, report.result = .ok n

/-- At its start a relay owes the body at the start of its input. -/
theorem owes_ofKind (hclosed : input.feed.closed = true) :
    Owes kind (ofKind kind) input (delimit kind input.pending) := by
  cases kind with
  | empty => exact .done input
  | contentLength length => exact .counted length length hclosed
  | chunked => exact .chunked ⟨0, input.pending, ⟨⟨rfl, rfl, rfl⟩, hclosed⟩, rfl⟩
  | untilClose => exact .untilClose hclosed

theorem length_payload_delimit_le (kind : Http.BodyKind) (bytes : Bytes) :
    (delimit kind bytes).payload.length ≤ bytes.length := by
  cases kind with
  | empty => exact Nat.zero_le _
  | contentLength length =>
    rw [delimit]
    split
    · rw [List.length_take]
      exact Nat.min_le_right _ _
    · exact Nat.le_refl _
  | chunked => exact Chunked.length_data_decode_le bytes
  | untilClose => exact Nat.le_refl _

/-- A relay of input that has arrived to its end delivers what is there. -/
theorem run_delivers (hclosed : input.feed.closed = true) :
    (run kind input).Delivers kind (delimit kind input.pending) :=
  runWithin_delivers (owes_ofKind hclosed)
    (Nat.lt_succ_of_le (length_payload_delimit_le kind input.pending))

theorem Report.Delivers.relayed {report : Report} {n : Nat}
    (h : report.Delivers kind (delimit kind input.pending)) (hresult : report.result = .ok n) :
    report.payload.length = n ∧ Relayed kind input report := by
  cases h with
  | whole pieces small payload wire result delimited =>
    -- the pieces of the body that was seen are those on the wire
    refine ⟨Except.ok.inj (result.symm.trans hresult), delimited, ?_⟩
    rw [payload] at delimited ⊢
    rw [wire]
    exact delimit_coded delimited small
  | broken result => cases result.symm.trans hresult

/-- A relay takes one body off its input and puts one on the wire, whatever was read ahead. -/
theorem run_relays (kind : Http.BodyKind) (input : Buffered) :
    Relays kind input (run kind input) := by
  refine ⟨fun n hresult => ?_, ?_, ?_⟩
  · -- the relay did not wait, so it is as if its input had ended
    have hrun : run kind input.close = (run kind input).close :=
      runWithin_close fun hstarved => by cases hresult.symm.trans hstarved
    have hdelivers : (run kind input.close).Delivers kind (delimit kind input.close.pending) :=
      run_delivers rfl
    rw [hrun] at hdelivers
    obtain ⟨hlength, hseen, hwire⟩ := hdelivers.relayed hresult
    exact ⟨hlength, hseen, hwire⟩
  · rintro length rfl hclosed hshort
    have hbody : delimit (.contentLength length) input.pending =
        ⟨input.pending, .error (.io .unexpectedEof)⟩ := by
      rw [delimit, if_neg (by omega)]
    have hdelivers : (run (.contentLength length) input).Delivers _ _ :=
      run_delivers hclosed
    rw [hbody] at hdelivers
    cases hdelivers with
    | whole pieces small payload wire result delimited => cases (Delimited.mk.inj delimited).2
    | broken result delimited forwarded =>
      obtain ⟨hpayload, hwire⟩ := forwarded (by simp)
      obtain rfl := Except.error.inj delimited
      exact ⟨result, hpayload, hwire⟩
  · intro rest hclosed hthere
    cases run_delivers hclosed with
    | whole pieces small payload wire result delimited => exact ⟨_, result⟩
    | broken result delimited => cases delimited.symm.trans hthere

/-- A body in two chunks in front of the next message, on a connection that stays open, and a
buffer of four bytes. -/
def twoChunks : Buffered :=
  .ofFeed { arrived := Bytes.ofText "2;ext=1\r\nhe\r\n3\r\nllo\r\n0\r\n\r\nGET" } 4

theorem run_relays_twoChunks :
    (run .chunked twoChunks).result = .ok 5 ∧
      (run .chunked twoChunks).payload = Bytes.ofText "hello" ∧
      (run .chunked twoChunks).input.pending = Bytes.ofText "GET" ∧
      Relayed .chunked twoChunks (run .chunked twoChunks) := by
  have hresult : (run .chunked twoChunks).result = .ok 5 := by decide +kernel
  refine ⟨hresult, by decide +kernel, by decide +kernel, ?_⟩
  exact ((run_relays .chunked twoChunks).whole 5 hresult).2

end BodyRelay

end HttpRelay.Proxy
