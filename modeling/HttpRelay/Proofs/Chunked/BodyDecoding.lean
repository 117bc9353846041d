import HttpRelay.Proofs.Chunked.FramingLines
import HttpRelay.Proofs.Chunked.Schedules

/-!
# Decoding the bodies of the grammar

What a decoder makes of a body, and that it takes nothing else for one.

* `decodeFrom_chunks`, `decode_body_of_taken`, `decode_body_of_not_taken`: a body is decoded chunk
  after chunk, as far as its size lines are taken;
* `chunk_or_last_of_decodeFrom`: what a decoder can have taken;
* `exists_body_of_decode`: what is in front of the rest is a body;
* `length_le_of_decode`: no body ends earlier;
* `drive_takes_shortest_body`: the same of a reader.
-/

namespace HttpRelay.Chunked

/-! ### Bodies are decoded -/

section Decoding

/-- The empty line behind some data is read off, whatever ends it. -/
theorem takeLine_terminator (terminator : Terminator) (rest : Bytes) :
    takeLine (terminator.bytes ++ rest) = .ok ([], rest) := by
  have hfits : terminator.line.Fits := by cases terminator <;> decide
  rw [← terminator.bytes_line, takeLine_of_fits hfits, terminator.content_line]

/-- A chunk is decoded, and what is behind it. -/
theorem decodeFrom_chunk (chunk : Chunk) (h : chunk.size.Taken) (rest : Bytes) :
    decodeFrom 0 (chunk.bytes ++ rest) = (decodeFrom 0 rest).behind chunk.data := by
  -- the size line opens the chunk, whose data is all there
  have hsize : chunk.data.length ≠ 0 := by simpa using chunk.nonempty
  have htake : takeSize (chunk.bytes ++ rest) =
      .ok (chunk.data.length, chunk.data ++ (chunk.ending.bytes ++ rest)) := by
    rw [Chunk.bytes, List.append_assoc, takeSize_of_taken chunk.spells h, List.append_assoc]
  have hle : chunk.data.length ≤ (chunk.data ++ (chunk.ending.bytes ++ rest)).length := by
    rw [List.length_append]
    exact Nat.le_add_right _ _
  -- behind the data stands the empty line, and then what is behind the chunk
  have hline : decodeData 0 (chunk.ending.bytes ++ rest) = decodeFrom 0 rest := by
    rw [decodeData, if_pos rfl, takeLine_terminator]
    rfl
  rw [decodeFrom_open htake hsize, decodeFrom_whole hsize hle, List.drop_left, List.take_left,
    hline]

/-- Chunks are decoded one after the other. -/
theorem decodeFrom_chunks {chunks : List Chunk} (h : ∀ chunk ∈ chunks, chunk.size.Taken)
    (rest : Bytes) :
    decodeFrom 0 (chunks.flatMap Chunk.bytes ++ rest) =
      (decodeFrom 0 rest).behind (chunks.flatMap Chunk.data) := by
  induction chunks with
  | nil => rfl
  | cons chunk chunks ih =>
    obtain ⟨hchunk, hchunks⟩ := List.forall_mem_cons.mp h
    rw [List.flatMap_cons, List.flatMap_cons, List.append_assoc, decodeFrom_chunk chunk hchunk,
      ih hchunks, behind_behind]

/-- The first chunk whose size line is not taken is refused. -/
theorem decodeFrom_chunks_of_not_taken {chunks : List Chunk}
    (h : ¬ ∀ chunk ∈ chunks, chunk.size.Taken) (rest : Bytes) :
    ∃ text, (decodeFrom 0 (chunks.flatMap Chunk.bytes ++ rest)).result =
      .error (.invalidSize text) := by
  induction chunks with
  | nil => exact absurd (List.forall_mem_nil _) h
  | cons chunk chunks ih =>
    rw [List.flatMap_cons, List.append_assoc]
    by_cases hchunk : chunk.size.Taken
    · -- the line that is not taken is behind this chunk
      rw [decodeFrom_chunk chunk hchunk]
      exact ih fun hall => h (List.forall_mem_cons.mpr ⟨hchunk, hall⟩)
    · obtain ⟨text, htake⟩ := takeSize_of_not_taken hchunk
        (chunk.data ++ chunk.ending.bytes ++ (chunks.flatMap Chunk.bytes ++ rest))
      refine ⟨text, ?_⟩
      rw [Chunk.bytes, List.append_assoc, decodeFrom_of_no_size htake]

variable {body : Body}

theorem forall_mem_sizeLines {p : Line → Prop} :
    (∀ line ∈ body.sizeLines, p line) ↔ (∀ chunk ∈ body.chunks, p chunk.size) ∧ p body.last := by
  simp [Body.sizeLines, or_imp, forall_and]

/-- A body whose size lines are all taken is decoded up to its trailers. -/
theorem decode_body_of_taken (h : ∀ line ∈ body.sizeLines, line.Taken) (after : Bytes) :
    decode (body.bytes ++ after) =
      ⟨body.payload, takeTrailers maxTrailerLines (body.trailerBytes ++ after)⟩ := by
  obtain ⟨hchunks, hlast⟩ := forall_mem_sizeLines.mp h
  rw [decode, Body.bytes, List.append_assoc, decodeFrom_chunks hchunks, List.append_assoc,
    decodeFrom_last (takeSize_of_taken body.spells hlast _), Decoded.behind, List.append_nil]
  rfl

/-- Otherwise the first size line that is not taken is refused. -/
theorem decode_body_of_not_taken (h : ¬ ∀ line ∈ body.sizeLines, line.Taken) (after : Bytes) :
    ∃ text, (decode (body.bytes ++ after)).result = .error (.invalidSize text) := by
  rw [decode, Body.bytes, List.append_assoc]
  by_cases hchunks : ∀ chunk ∈ body.chunks, chunk.size.Taken
  · have hlast : ¬ body.last.Taken := fun hlast => h (forall_mem_sizeLines.mpr ⟨hchunks, hlast⟩)
    obtain ⟨text, htake⟩ := takeSize_of_not_taken hlast (body.trailerBytes ++ after)
    refine ⟨text, ?_⟩
    rw [decodeFrom_chunks hchunks, List.append_assoc, decodeFrom_of_no_size htake]
    rfl
  · exact decodeFrom_chunks_of_not_taken hchunks _

end Decoding

/-! ### Only bodies are decoded -/

section Taking

variable {bytes data rest : Bytes}

/-- Where trailers end, there are trailers in front, and an empty line. -/
theorem exists_trailers_of_takeTrailers {budget : Nat} (h : takeTrailers budget bytes = .ok rest) :
    ∃ (trailers : List Line) (ending : Terminator), (∀ trailer ∈ trailers, trailer.text ≠ []) ∧
      bytes = trailers.flatMap Line.bytes ++ ending.bytes ++ rest := by
  induction budget generalizing bytes with
  | zero => cases h
  | succ budget ih =>
    rw [takeTrailers] at h
    split at h
    next text behind hline =>
      obtain ⟨line, htext, -, -, rfl⟩ := exists_line_of_takeLine hline
      split at h
      next hempty =>
        -- an empty line is nothing but its terminator
        obtain rfl := Except.ok.inj h
        refine ⟨[], line.terminator, List.forall_mem_nil _, ?_⟩
        rw [Line.bytes, htext, List.isEmpty_iff.mp hempty]
        rfl
      next hsome =>
        obtain ⟨trailers, ending, htrailers, rfl⟩ := ih h
        refine ⟨line :: trailers, ending, List.forall_mem_cons.mpr ⟨?_, htrailers⟩, ?_⟩
        · simpa [htext] using hsome
        · rw [List.flatMap_cons, List.append_assoc, List.append_assoc, List.append_assoc]
    next => cases h

/-- A decoder that comes to an end has taken a chunk, or the last size line and the trailers. -/
theorem chunk_or_last_of_decodeFrom (h : decodeFrom 0 bytes = ⟨data, .ok rest⟩) :
    (∃ (chunk : Chunk) (behind more : Bytes), bytes = chunk.bytes ++ behind ∧
        data = chunk.data ++ more ∧ decodeFrom 0 behind = ⟨more, .ok rest⟩) ∨
      data = [] ∧ ∃ (last : Line) (behind : Bytes), Spells 0 last.text ∧
        bytes = last.bytes ++ behind ∧ takeTrailers maxTrailerLines behind = .ok rest := by
  cases hsize : takeSize bytes with
  | error error =>
    rw [decodeFrom_of_no_size hsize] at h
    cases (Decoded.mk.inj h).2
  | ok taken =>
    obtain ⟨size, inside⟩ := taken
    obtain ⟨line, hspells, -, rfl⟩ := exists_line_of_takeSize hsize
    by_cases hzero : size = 0
    · -- the size line is the last one
      subst hzero
      rw [decodeFrom_last hsize] at h
      obtain ⟨rfl, htrailers⟩ := Decoded.mk.inj h
      exact .inr ⟨rfl, line, inside, hspells, rfl, htrailers⟩
    rw [decodeFrom_open hsize hzero] at h
    by_cases hshort : inside.length < size
    · rw [decodeFrom, if_neg hzero, if_pos hshort] at h
      cases (Decoded.mk.inj h).2
    have hle := Nat.not_lt.mp hshort
    rw [decodeFrom_whole hzero hle, decodeData, if_pos rfl] at h
    cases hline : takeLine (inside.drop size) with
    | error error =>
      rw [hline] at h
      cases (Decoded.mk.inj h).2
    | ok taken =>
      obtain ⟨text, behind⟩ := taken
      rw [hline] at h
      dsimp only at h
      split at h
      next hempty =>
        -- the data of the chunk, and the empty line behind it
        obtain ⟨ending, htext, -, -, hinside⟩ := exists_line_of_takeLine hline
        have hlength : (inside.take size).length = size := by
          rw [List.length_take, Nat.min_eq_left hle]
        let chunk : Chunk :=
          { size := line
            data := inside.take size
            ending := ending.terminator
            spells := by rwa [hlength]
            nonempty := fun hnil => hzero (by rw [← hlength, hnil, List.length_nil]) }
        have hending : ending.bytes = ending.terminator.bytes := by
          rw [Line.bytes, htext, List.isEmpty_iff.mp hempty, List.nil_append]
        have hbytes : line.bytes ++ inside = chunk.bytes ++ behind := by
          change _ = line.bytes ++ (inside.take size ++ ending.terminator.bytes) ++ behind
          rw [← hending, List.append_assoc, List.append_assoc, ← hinside, List.take_append_drop]
        obtain ⟨rfl, hresult⟩ := Decoded.mk.inj h
        exact .inl ⟨chunk, behind, _, hbytes, rfl, by rw [← hresult]⟩
      next => cases (Decoded.mk.inj h).2

/-- What is in front of the rest is a body with the data that was decoded. -/
theorem exists_body_of_decode (h : decode bytes = ⟨data, .ok rest⟩) :
    ∃ body : Body, bytes = body.bytes ++ rest ∧ data = body.payload := by
  rw [decode] at h
  induction hlength : bytes.length using Nat.strongRecOn generalizing bytes data with
  | ind length ih =>
    subst hlength
    rcases chunk_or_last_of_decodeFrom h with
      ⟨chunk, behind, more, rfl, rfl, hmore⟩ | ⟨rfl, last, behind, hspells, rfl, htrailers⟩
    · have hshorter : behind.length < (chunk.bytes ++ behind).length := by
        have hdata := List.length_pos_iff.mpr chunk.nonempty
        rw [Chunk.bytes]
        simp only [List.length_append]
        omega
      -- the chunk is put in front of the body behind it
      obtain ⟨body, rfl, rfl⟩ := ih _ hshorter hmore rfl
      refine ⟨{ body with chunks := chunk :: body.chunks }, ?_, rfl⟩
      simp only [Body.bytes, Body.trailerBytes, List.flatMap_cons, List.append_assoc]
    · obtain ⟨trailers, ending, hnonempty, rfl⟩ := exists_trailers_of_takeTrailers htrailers
      refine ⟨⟨[], last, trailers, ending, hspells, hnonempty⟩, ?_, rfl⟩
      simp only [Body.bytes, Body.trailerBytes, List.flatMap_nil, List.nil_append,
        List.append_assoc]

/-! ### The shortest body is decoded -/

/-- Trailers end at the first line that is read as an empty one, and not later. -/
theorem length_le_of_takeTrailers {trailers : List Line} {ending : Terminator} {budget : Nat}
    {after : Bytes}
    (h : takeTrailers budget (trailers.flatMap Line.bytes ++ ending.bytes ++ after) = .ok rest) :
    after.length ≤ rest.length := by
  induction trailers generalizing budget with
  | nil =>
    cases budget with
    | zero => cases h
    | succ budget =>
      rw [takeTrailers, List.flatMap_nil, List.nil_append, takeLine_terminator] at h
      obtain rfl := Except.ok.inj h
      rfl
  | cons trailer trailers ih =>
    cases budget with
    | zero => cases h
    | succ budget =>
      rw [takeTrailers, List.flatMap_cons, List.append_assoc, List.append_assoc] at h
      by_cases hfits : trailer.Fits
      · rw [takeLine_of_fits hfits] at h
        dsimp only at h
        split at h
        next =>
          -- a lone carriage return is a text of the grammar, but is read as an empty line
          obtain rfl := Except.ok.inj h
          simp only [List.length_append]
          omega
        next => exact ih (by rwa [List.append_assoc])
      · rw [takeLine_of_not_fits hfits] at h
        cases h

/-- No body ends earlier than what is decoded. -/
theorem length_le_of_decode {body : Body} {after : Bytes}
    (h : (decode (body.bytes ++ after)).result = .ok rest) : after.length ≤ rest.length := by
  by_cases htaken : ∀ line ∈ body.sizeLines, line.Taken
  · rw [decode_body_of_taken htaken] at h
    exact length_le_of_takeTrailers h
  · obtain ⟨text, hresult⟩ := decode_body_of_not_taken htaken after
    cases h.symm.trans hresult

end Taking

/-! ### Readers -/

/-- A reader that comes to the end of a body, with no read that fails before, has taken the shortest
body in front of the stream and has delivered its data. -/
theorem drive_takes_shortest_body {stream rest : Bytes} {closed : Bool}
    {capacity : Buffered.Capacity} {ns : List Nat} (hns : ∀ n ∈ ns, 0 < n)
    (h : ((Reader.ofArrived stream closed capacity).drive ns).outcome = some (.ok rest)) :
    ∃ body : Body, stream = body.bytes ++ rest ∧
      ((Reader.ofArrived stream closed capacity).drive ns).payload = body.payload ∧
      ∀ other : Body, other.bytes <+: stream → body.bytes.length ≤ other.bytes.length := by
  have hdecode := decode_of_drive hns h
  obtain ⟨body, hstream, hpayload⟩ := exists_body_of_decode hdecode
  refine ⟨body, hstream, hpayload, ?_⟩
  rintro other ⟨after, hother⟩
  have hresult : (decode (other.bytes ++ after)).result = .ok rest := by rw [hother, hdecode]
  have hafter := length_le_of_decode hresult
  -- both bodies and what is behind them are the whole stream
  have hlength := congrArg List.length (hother.trans hstream)
  rw [List.length_append, List.length_append] at hlength
  omega

/-- A body with blanks around a size, an extension, bare line feeds and a trailer, in front of
another request, read two bytes at a time through a buffer of three. -/
theorem drive_takes_shortest_body_hello :
    let stream := Bytes.ofText "\t5 ;x\r\nhello\n0\nA: b\r\n\r\nGET"
    let drive := (Reader.ofArrived stream false 3).drive (List.replicate 4 2)
    drive.payload = Bytes.ofText "hello" ∧
      ∃ body : Body, stream = body.bytes ++ Bytes.ofText "GET" ∧ drive.payload = body.payload ∧
        ∀ other : Body, other.bytes <+: stream → body.bytes.length ≤ other.bytes.length := by
  refine ⟨by decide +kernel, drive_takes_shortest_body ?_ (by decide +kernel)⟩
  simp

end HttpRelay.Chunked
