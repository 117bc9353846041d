import HttpRelay.Proofs.Chunked.Copying
import Mathlib.Algebra.GroupWithZero.Nat

/-!
# What a copy leaves on the wire

A copy that fails, at whatever place of its input, has put whole chunks on the wire and no closing
chunk behind them: who reads them finds the body cut short. A copy that succeeds has put all of the
data there, in chunks of one length but for the last, and one closing chunk. A writer that was
closed before takes nothing more.

* `decode_chunks`: chunks without a closing chunk are a body that is cut short;
* `Copy.Report.Outcome`, `Copy.runWithin_outcome`: what comes of a copy, by induction on its passes;
* `Copy.Report.IsWhole`, `Copy.Report.IsCutShort`: the same as seen on the wire;
* `Copy.run_closed_of_read`: a copy to a writer that was closed before;
* `Copy.run_whole_or_cutShort`: all of this for a byte string.
-/

namespace HttpRelay.Chunked

section Chunks

variable {pieces : List Bytes}

/-- The chunks of some data with nothing behind them are a body that is cut short. -/
theorem decode_chunks (hpieces : ∀ piece ∈ pieces, piece ≠ [] ∧ piece.length < UInt64.size) :
    decode (pieces.flatMap chunk) = ⟨pieces.flatten, .error .unexpectedEof⟩ := by
  induction pieces with
  | nil =>
    have hnone : takeSize [] = .error .unexpectedEof := by rfl
    exact decodeFrom_of_no_size hnone
  | cons piece pieces ih =>
    obtain ⟨⟨hsome, hsize⟩, hothers⟩ := List.forall_mem_cons.mp hpieces
    rw [List.flatMap_cons, decode_chunk hsome hsize, ih hothers]
    rfl

/-- Pieces that are not empty have a chunk each. -/
theorem flatMap_recode (hpieces : ∀ piece ∈ pieces, piece ≠ []) :
    pieces.flatMap recode = pieces.flatMap chunk :=
  List.flatMap_congr fun piece hpiece => if_neg (hpieces piece hpiece)

end Chunks

namespace Copy

/-- A piece that fills a pass. -/
def IsFull (piece : Bytes) : Prop := piece.length = copyLength

theorem IsFull.ne_nil {piece : Bytes} (h : IsFull piece) : piece ≠ [] := by
  rintro rfl
  cases h

theorem IsFull.length_lt {piece : Bytes} (h : IsFull piece) : piece.length < UInt64.size := by
  rw [IsFull] at h
  rw [h]
  decide

namespace Report

/-- What comes of a copy to an open writer, of input that is decoded to `d`. -/
inductive Outcome (d : Decoded) (report : Report) : Prop
  /-- All of the data is carried over, cut where passes end, and the body is closed. -/
  | whole (full : List Bytes) (last : Bytes) (cut : ∀ piece ∈ full, IsFull piece)
      (short : last.length < copyLength) (data : d.data = full.flatten ++ last)
      (slices : report.slices = full ++ if last = [] then [] else [last])
      (wire : report.wire = full.flatMap chunk ++ recode last ++ terminator)
      (result : report.result = .ok d.data.length)
      (behind : d.result = .ok report.final.reader.input.pending)
  /-- Full pieces are carried over up to the pass that fails, and nothing more. -/
  | cutShort {error : Error} (result : report.result = .error (.failed error))
      (fails : d.result = .error error) (cut : ∀ slice ∈ report.slices, IsFull slice)
      (carried : report.slices.flatten <+: d.data)
      (wire : report.wire = report.slices.flatMap chunk)
      (unfinished : report.final.writer.finished = false)

/-- A report behind passes whose outcome is given last pass first. -/
def behind (slices wires : List Bytes) (report : Report) : Report :=
  { report with
    slices := slices.reverse ++ report.slices
    wire := wires.reverse.flatten ++ report.wire
    result := report.result.map ((slices.map List.length).sum + ·) }

/-- A full piece, and then the rest of a copy. -/
theorem Outcome.behind {rest : Decoded} {report : Report} {piece : Bytes}
    (h : report.Outcome rest) (hpiece : IsFull piece) :
    (report.behind [piece] [chunk piece]).Outcome (rest.behind piece) := by
  cases h with
  | whole full last cut short data slices wire result behind =>
    refine .whole (piece :: full) last (List.forall_mem_cons.mpr ⟨hpiece, cut⟩) short ?_ ?_ ?_ ?_
      behind
    · simp [Decoded.behind, data]
    · simp [Report.behind, slices]
    · simp [Report.behind, wire]
    · simp [Report.behind, Decoded.behind, result, Except.map]
  | cutShort result fails cut carried wire unfinished =>
    refine .cutShort ?_ fails (List.forall_mem_cons.mpr ⟨hpiece, cut⟩) ?_ ?_ unfinished
    · simp [Report.behind, result, Except.map]
    · exact (List.prefix_append_right_inj piece).mpr carried
    · simp [Report.behind, wire]

end Report

section Runs

variable {input : Buffered} {remaining : Nat} {d : Decoded}

theorem runWithin_zero (slices wires : List Bytes) (copy : Copy) :
    runWithin slices wires copy 0 =
      ⟨copy, slices.reverse, wires.reverse.flatten, .error .starved⟩ :=
  rfl

/-- A pass is made, and there are others behind it only if it has not closed the body. -/
theorem runWithin_succ (slices wires : List Bytes) (copy : Copy) (passes : Nat) :
    runWithin slices wires copy (passes + 1) =
      let seen := if copy.pass.seen.isEmpty then slices else copy.pass.seen :: slices
      let written := copy.pass.wire :: wires
      match copy.pass.status with
      | .ok false => runWithin seen written copy.pass.next passes
      | .ok true => ⟨copy.pass.next, seen.reverse, written.reverse.flatten,
          .ok (seen.map List.length).sum⟩
      | .error halt => ⟨copy.pass.next, seen.reverse, written.reverse.flatten, .error halt⟩ :=
  rfl

theorem runWithin_eq_behind (slices wires : List Bytes) (copy : Copy) (passes : Nat) :
    runWithin slices wires copy passes = (runWithin [] [] copy passes).behind slices wires := by
  -- both sides make the same pass, which is then in front of the later ones
  induction passes generalizing slices wires copy with
  | zero => simp [runWithin_zero, Report.behind, Except.map]
  | succ passes ih =>
    rw [runWithin_succ, runWithin_succ]
    by_cases hseen : copy.pass.seen.isEmpty = true
    · simp only [hseen, if_true]
      split
      · rw [ih, ih [] [_]]
        generalize runWithin [] [] _ passes = report
        cases hresult : report.result <;> simp [Report.behind, hresult, Except.map]
      · simp [Report.behind, Except.map]
      · simp [Report.behind, Except.map]
    · simp only [hseen, Bool.false_eq_true, if_false]
      split
      · rw [ih, ih [_] [_]]
        generalize runWithin [] [] _ passes = report
        cases hresult : report.result with
        | error halt => simp [Report.behind, hresult, Except.map]
        | ok n =>
          simp [Report.behind, hresult, Except.map]
          omega
      · simp [Report.behind, Except.map, Nat.add_comm]
      · simp [Report.behind, Except.map]

/-- A copy of input that has arrived to its end comes to an end with it. -/
theorem runWithin_outcome (h : Reader.Holds { input, remaining } d) {passes : Nat}
    (hpasses : d.data.length < passes) :
    (runWithin [] [] { reader := { input, remaining } } passes).Outcome d := by
  -- every pass but the last takes some of the data, so that fewer passes do for what is left
  induction passes generalizing input remaining d with
  | zero => omega
  | succ passes ih =>
    rw [runWithin_succ]
    rcases pass_cases h with ⟨reader, hopen, hroom, hholds, hrun⟩ |
      ⟨reader, writer, hroom, hresult, hrun⟩ | ⟨reader, error, hresult, hrun⟩
    · -- a full piece, and what is behind it is copied by the passes that are left
      have hfull : IsFull (d.data.take copyLength) := List.length_take_of_le hroom
      have hpos : 0 < copyLength := by decide
      have hreader : reader = { input := reader.input, remaining := reader.remaining } := by
        rw [← hopen]
      rw [hreader] at hholds
      have hsplit : d = Decoded.behind (d.data.take copyLength)
          { d with data := d.data.drop copyLength } := by
        rw [Decoded.behind, List.take_append_drop]
      have hrest := (ih hholds (by rw [List.length_drop]; omega)).behind hfull
      rw [← hsplit] at hrest
      simp only [hrun, List.isEmpty_iff, hfull.ne_nil, if_false]
      rw [hreader, runWithin_eq_behind, recode, if_neg hfull.ne_nil]
      exact hrest
    · -- the rest of the data, and the end of the body right behind it
      simp only [hrun]
      refine .whole [] d.data (List.forall_mem_nil _) hroom rfl ?_ ?_ ?_ hresult
      · by_cases hdata : d.data = [] <;> simp [hdata]
      · simp
      · by_cases hdata : d.data = [] <;> simp [hdata]
    · -- what the reader has gathered of this piece is dropped with the failure
      simp only [hrun]
      refine .cutShort rfl hresult (List.forall_mem_nil _) List.nil_prefix ?_ rfl
      simp

end Runs

/-! ### As seen on the wire -/

namespace Report

variable {data : Bytes} {report : Report}

/-- A copy that carried a whole body over. -/
structure IsWhole (data : Bytes) (report : Report) : Prop where
  result : report.result = .ok data.length
  seen : report.slices.flatten = data
  /-- The data is cut into full pieces and a shorter rest, each with a chunk of its own unless the
  rest is empty, and behind the chunks the body is closed. -/
  wire : ∃ (full : List Bytes) (last : Bytes), (∀ piece ∈ full, IsFull piece) ∧
    last.length < copyLength ∧ full.flatten ++ last = data ∧
    report.wire = full.flatMap chunk ++ recode last ++ terminator
  /-- Who reads the wire finds the whole body. -/
  complete : decode report.wire = ⟨data, .ok []⟩

/-- A copy that carried a part of a body over, and did not close it. -/
structure IsCutShort (data : Bytes) (report : Report) : Prop where
  unfinished : report.final.writer.finished = false
  nonempty : ∀ slice ∈ report.slices, slice ≠ []
  /-- There is nothing but chunks on the wire, one for every piece that was seen. -/
  wire : report.wire = report.slices.flatMap chunk
  carried : report.slices.flatten <+: data
  /-- Who reads the wire finds a body that is cut short. -/
  incomplete : decode report.wire = ⟨report.slices.flatten, .error .unexpectedEof⟩

theorem isWhole_of_outcome {rest : Bytes} (h : report.Outcome ⟨data, .ok rest⟩) :
    report.IsWhole data := by
  cases h with
  | cutShort _ fails => cases fails
  | whole full last cut short hdata slices wire result =>
    refine ⟨result, ?_, ⟨full, last, cut, short, hdata.symm, wire⟩, ?_⟩
    · rw [slices, List.flatten_append]
      obtain rfl : data = full.flatten ++ last := hdata
      by_cases hlast : last = [] <;> simp [hlast]
    · -- the pieces are small enough for what was coded of them to be decoded
      have hsmall : ∀ piece ∈ full ++ [last], piece.length < UInt64.size := by
        intro piece hpiece
        rcases List.mem_append.mp hpiece with hfull | hlast
        · exact (cut piece hfull).length_lt
        · obtain rfl := List.mem_singleton.mp hlast
          exact Nat.lt_trans short (by decide)
      have hdecode := decode_recoded hsmall []
      rw [List.flatMap_append, flatMap_recode fun piece hpiece => (cut piece hpiece).ne_nil,
        List.flatMap_singleton, List.flatten_append, List.append_nil, ← wire] at hdecode
      rw [hdecode]
      obtain rfl : data = full.flatten ++ last := hdata
      simp

theorem isCutShort_of_outcome {d : Decoded} {error : Error} (h : report.Outcome d)
    (herror : d.result = .error error) (hdata : d.data <+: data) :
    report.result = .error (.failed error) ∧ report.IsCutShort data := by
  cases h with
  | whole _ _ _ _ _ _ _ _ behind => cases behind.symm.trans herror
  | cutShort result fails cut carried wire unfinished =>
    obtain rfl := Except.error.inj (fails.symm.trans herror)
    have hsome (slice : Bytes) (hslice : slice ∈ report.slices) : slice ≠ [] :=
      (cut slice hslice).ne_nil
    refine ⟨result, unfinished, hsome, wire, carried.trans hdata, ?_⟩
    rw [wire]
    exact decode_chunks fun slice hslice => ⟨hsome slice hslice, (cut slice hslice).length_lt⟩

end Report

/-- A copy to a writer that was closed before fails with the first data that it has, or at the end
of the body, and puts nothing on the wire. -/
theorem run_closed_of_read {r r' : Reader} {data : Bytes}
    (hread : r.read copyLength = (.ok data, r')) (hsome : data ≠ [] ∨ r'.ended = true) :
    (run { reader := r, writer := { finished := true } }).wire = [] ∧
      (run { reader := r, writer := { finished := true } }).result =
        .error (.failed .finished) := by
  have hpass : (pass { reader := r, writer := { finished := true } }).wire = [] ∧
      (pass { reader := r, writer := { finished := true } }).status =
        .error (.failed .finished) := by
    rw [pass]
    simp only [hread]
    by_cases hdata : data = []
    · have hended : r'.ended = true := hsome.resolve_left (not_not.mpr hdata)
      simp [hdata, hended, Writer.finish]
    · simp [hdata, Writer.write]
  rw [run, runWithin_succ]
  simp only [hpass.1, hpass.2]
  simp

/-- Where its reader fails, so does the copy. -/
theorem run_of_read_error {copy : Copy} {error : Error} {r : Reader}
    (hread : copy.reader.read copyLength = (.error (.failed error), r)) :
    copy.run.wire = [] ∧ copy.run.result = .error (.failed error) := by
  rw [run, runWithin_succ]
  simp only [pass_error hread]
  simp

/-- A copy of a byte string that has arrived to its end, to a writer that was closed before or
not. -/
def ofArrived (bytes : Bytes) (capacity : Buffered.Capacity) (closed : Bool) : Copy where
  reader := .ofArrived bytes true capacity
  writer := { finished := closed }

section Strings

variable (bytes : Bytes) (capacity : Buffered.Capacity)

/-- A reader of input that has arrived to its end gives data, or ends, or fails. -/
theorem read_cases :
    (∃ data r', (Reader.ofArrived bytes true capacity).read copyLength = (.ok data, r') ∧
        (data ≠ [] ∨ r'.ended = true)) ∨
      ∃ error r', (Reader.ofArrived bytes true capacity).read copyLength =
        (.error (.failed error), r') := by
  rcases Reader.readFrom_holds (Reader.holds_ofArrived bytes capacity) copyLength [] with
    ⟨r', hread, hroom, -⟩ | ⟨r', hread, -, hended, -⟩ | ⟨r', error, hread, -⟩
  · have hfull : IsFull ((decode bytes).data.take copyLength) := List.length_take_of_le hroom
    exact .inl ⟨_, r', hread, .inl hfull.ne_nil⟩
  · exact .inl ⟨_, r', hread, .inr hended⟩
  · exact .inr ⟨error, r', hread⟩

/-- What comes of a copy of a byte string is what the string is as a body. -/
theorem run_outcome : (ofArrived bytes capacity false).run.Outcome (decode bytes) :=
  runWithin_outcome (Reader.holds_ofArrived bytes capacity)
    (Nat.lt_succ_of_le (length_data_decode_le bytes))

/-- A byte string is copied to a writer that takes all bytes, through any read-ahead. If it is a
whole body, all of it is put on the wire, and otherwise whole chunks with no close behind them. A
writer that was closed before puts nothing there. -/
theorem run_whole_or_cutShort :
    ((ofArrived bytes capacity false).run.IsWhole (decode bytes).data ∨
        ∃ error, (ofArrived bytes capacity false).run.result = .error (.failed error) ∧
          (ofArrived bytes capacity false).run.IsCutShort (decode bytes).data) ∧
      ((∃ n, (ofArrived bytes capacity false).run.result = .ok n) ↔
        ∃ rest, (decode bytes).result = .ok rest) ∧
      (ofArrived bytes capacity true).run.wire = [] ∧
      ((ofArrived bytes capacity true).run.result = .error (.failed .finished) ∨
        ∃ error, ((Reader.ofArrived bytes true capacity).read copyLength).1 =
            .error (.failed error) ∧
          (ofArrived bytes capacity true).run.result = .error (.failed error)) := by
  have houtcome := run_outcome bytes capacity
  refine ⟨?_, ?_, ?_⟩
  · cases hresult : (decode bytes).result with
    | ok rest =>
      have hdecode : decode bytes = ⟨(decode bytes).data, .ok rest⟩ := by rw [← hresult]
      rw [hdecode] at houtcome
      exact .inl (Report.isWhole_of_outcome houtcome)
    | error error =>
      exact .inr ⟨error, Report.isCutShort_of_outcome houtcome hresult List.prefix_rfl⟩
  · constructor
    · rintro ⟨n, hn⟩
      cases houtcome with
      | whole _ _ _ _ _ _ _ _ behind => exact ⟨_, behind⟩
      | cutShort result => cases hn.symm.trans result
    · rintro ⟨rest, hrest⟩
      cases houtcome with
      | whole _ _ _ _ _ _ _ result => exact ⟨_, result⟩
      | cutShort _ fails => cases hrest.symm.trans fails
  · rcases read_cases bytes capacity with ⟨data, r', hread, hsome⟩ | ⟨error, r', hread⟩
    · obtain ⟨hwire, hresult⟩ := run_closed_of_read hread hsome
      exact ⟨hwire, .inl hresult⟩
    · have hrefused : (ofArrived bytes capacity true).run.wire = [] ∧
          (ofArrived bytes capacity true).run.result = .error (.failed error) :=
        run_of_read_error hread
      exact ⟨hrefused.1, .inr ⟨error, congrArg Prod.fst hread, hrefused.2⟩⟩

end Strings

end Copy

end HttpRelay.Chunked
