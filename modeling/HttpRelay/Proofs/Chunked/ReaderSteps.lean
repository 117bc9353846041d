import HttpRelay.Chunked.Reader
import HttpRelay.Proofs.Chunked.SizeLine
import HttpRelay.Proofs.Outcome
import HttpRelay.Proofs.Transport.Buffered

/-!
# Steps of a chunked reader

What each step of a reader does with the bytes that are pending, whatever the capacity of its
buffer. A reader is `Ready` when it is inside a body, with some data left in its chunk and some
bytes pending.

* `line_run`, `sizeLine_run`: a framing line is read off the pending bytes;
* `openChunk_run`, `openChunk_end`: a chunk is opened, or the body ends;
* `chunkData_run`: some data of the current chunk is read, and its end if it is complete.
-/

namespace HttpRelay.Chunked.Reader

open Outcome

variable {r : Reader}

/-- A reader inside a body. -/
structure Ready (r : Reader) (remaining : Nat) (pending : Bytes) : Prop where
  ended : r.ended = false
  remaining : r.remaining = remaining
  pending : r.input.pending = pending

/-- A read of the input below, by its outcome. -/
theorem lift_run {α : Type} {read : Buffered → Except (Halt IoFailure) α × Buffered} {a : α}
    {input : Buffered} (h : read r.input = (.ok a, input)) :
    (lift read).run.run r = (.ok a, { r with input }) := by
  simp only [lift, ExceptT.run_mk, StateT.run, h]
  rfl

/-- A pending line is read, without its terminator. -/
theorem line_run {remaining : Nat} {line rest : Bytes}
    (h : r.Ready remaining (line ++ Bytes.crlf ++ rest)) (hline : Bytes.lf ∉ line)
    (hlength : line.length ≤ maxLineLength) :
    ∃ r', Reader.line.run.run r = (.ok line, r') ∧ r'.Ready remaining rest := by
  have hpending : r.input.pending = (line ++ [Bytes.cr]) ++ Bytes.lf :: rest := by
    rw [h.pending, Bytes.crlf]
    simp
  -- The line is read up to its line feed: the carriage return before it belongs to what is read.
  have hnone : Bytes.lf ∉ line ++ [Bytes.cr] := by
    intro hmem
    rcases List.mem_append.mp hmem with hmem | hmem
    · exact hline hmem
    · exact absurd (List.mem_singleton.mp hmem) (by decide)
  have hlimit : (line ++ [Bytes.cr]).length < lineReadLimit := by
    rw [List.length_append, List.length_singleton, lineReadLimit]
    omega
  obtain ⟨input, hread, hrest⟩ := @Buffered.readLine_eq IoFailure _ _ _ _ hnone hpending hlimit
  have hwhole : line ++ [Bytes.cr] ++ [Bytes.lf] = line ++ Bytes.crlf := by
    rw [List.append_assoc, Bytes.crlf]
    rfl
  rw [hwhole] at hread
  have hlast : (line ++ Bytes.crlf).getLast? = some Bytes.lf := by simp [Bytes.crlf]
  have hlift : (lift (·.readLine lineReadLimit)).run.run r =
      (.ok (line ++ Bytes.crlf), { r with input }) := lift_run hread
  refine ⟨{ r with input }, ?_, ⟨h.ended, h.remaining, hrest⟩⟩
  rw [Reader.line, run_bind_ok hlift, if_pos hlast, run_pure, Bytes.chomp_append_crlf]

theorem sizeLine_run {remaining size : Nat} {rest : Bytes} (hsize : size < UInt64.size)
    (h : r.Ready remaining (sizeText size ++ Bytes.crlf ++ rest)) :
    ∃ r', sizeLine.run.run r = (.ok size, r') ∧ r'.Ready remaining rest := by
  obtain ⟨r', hline, hready⟩ :=
    line_run h (lf_not_mem_sizeText size) (length_sizeText_le_maxLineLength hsize)
  refine ⟨r', ?_, hready⟩
  rw [sizeLine, run_bind_ok (run_tryCatch_ok hline)]
  simp only [parseSize_sizeText hsize, run_pure]

/-- At a chunk boundary, the next chunk is opened. -/
theorem openChunk_run {data rest : Bytes} (hdata : data ≠ []) (hsize : data.length < UInt64.size)
    (h : r.Ready 0 (chunk data ++ rest)) :
    ∃ r', openChunk.run.run r = (.ok (), r') ∧
      r'.Ready data.length (data ++ Bytes.crlf ++ rest) := by
  have hframe : chunk data ++ rest =
      sizeText data.length ++ Bytes.crlf ++ (data ++ Bytes.crlf ++ rest) := by
    rw [chunk_eq]
    simp only [List.append_assoc]
  rw [hframe] at h
  obtain ⟨r', hread, hready⟩ := sizeLine_run hsize h
  have hsome : ¬ data.length = 0 := by simpa using hdata
  refine ⟨{ r' with remaining := data.length }, ?_, ⟨hready.ended, rfl, hready.pending⟩⟩
  rw [openChunk, run_bind_ok (run_get r), if_pos h.remaining, run_bind_ok hread, if_neg hsome,
    run_modify]

/-- Inside a chunk, there is nothing to open. -/
theorem openChunk_skip {remaining : Nat} {pending : Bytes} (hremaining : 0 < remaining)
    (h : r.Ready remaining pending) : openChunk.run.run r = (.ok (), r) := by
  have hinside : ¬ r.remaining = 0 := by
    rw [h.remaining]
    omega
  rw [openChunk, run_bind_ok (run_get r), if_neg hinside, run_pure]

/-- At the closing chunk, the body ends. -/
theorem openChunk_end {rest : Bytes} (h : r.Ready 0 (terminator ++ rest)) :
    ∃ r', openChunk.run.run r = (.ok (), r') ∧ r'.ended = true ∧ r'.input.pending = rest := by
  -- The closing chunk is a size line, and an empty line in place of any trailers.
  have hframe : terminator ++ rest = sizeText 0 ++ Bytes.crlf ++ ([] ++ Bytes.crlf ++ rest) := by
    rw [terminator_eq]
    simp only [List.append_assoc, List.nil_append]
  rw [hframe] at h
  obtain ⟨r', hsize, hready⟩ := sizeLine_run (by decide) h
  obtain ⟨r'', hline, hready'⟩ := line_run hready (by simp) (by decide)
  have htrailers : trailers.run.run r' = (.ok (), r'') := by
    rw [trailers, maxTrailerLines, trailersWithin, run_bind_ok hline]
    rfl
  refine ⟨{ r'' with ended := true }, ?_, rfl, hready'.pending⟩
  rw [openChunk, run_bind_ok (run_get r), if_pos h.remaining, run_bind_ok hsize, if_pos rfl,
    run_bind_ok htrailers, run_modify]

/-- What is left on the wire of a chunk that is read up to `data`. -/
def unread (data : Bytes) : Bytes := if data = [] then [] else data ++ Bytes.crlf

/-- Behind the last byte of its data, a chunk is read to its end. -/
theorem closeChunk_run {data rest : Bytes}
    (h : r.Ready data.length (data ++ Bytes.crlf ++ rest)) :
    ∃ r', closeChunk.run.run r = (.ok (), r') ∧ r'.Ready data.length (unread data ++ rest) := by
  by_cases hdata : data = []
  · subst hdata
    obtain ⟨r', hline, hready⟩ := line_run h (by simp) (by decide)
    have hdone : r.remaining = 0 := h.remaining
    refine ⟨r', ?_, hready⟩
    rw [closeChunk, run_bind_ok (run_get r), if_pos hdone, run_bind_ok hline]
    rfl
  · have hinside : ¬ r.remaining = 0 := by
      rw [h.remaining]
      simpa using hdata
    refine ⟨r, ?_, ?_⟩
    · rw [closeChunk, run_bind_ok (run_get r), if_neg hinside, run_pure]
    · rw [unread, if_neg hdata]
      exact h

/-- Some data of the current chunk is read, and the end of the chunk with its last byte. -/
theorem chunkData_run {want : Nat} {data rest : Bytes} (hdata : data ≠ []) (hwant : 0 < want)
    (h : r.Ready data.length (data ++ Bytes.crlf ++ rest)) :
    ∃ k r', 0 < k ∧ k ≤ want ∧ k ≤ data.length ∧
      (chunkData want).run.run r = (.ok (data.take k), r') ∧
      r'.Ready (data.drop k).length (unread (data.drop k) ++ rest) := by
  have hlength := List.length_pos_iff.mpr hdata
  have hpending : r.input.pending ≠ [] := by
    rw [h.pending]
    simp [hdata]
  -- How much is read depends on the buffer, but it is no more than the chunk has left.
  obtain ⟨k, input, hk, hlimit, -, hread, hrest, -⟩ :=
    @Buffered.readSome_eq IoFailure _ (min want data.length) (by omega) hpending
  have hle : k ≤ data.length := by omega
  have htake : r.input.pending.take k = data.take k := by
    rw [h.pending, List.append_assoc, List.take_append_of_le_length hle]
  have hdrop : r.input.pending.drop k = data.drop k ++ Bytes.crlf ++ rest := by
    rw [h.pending, List.append_assoc, List.drop_append_of_le_length hle, List.append_assoc]
  have hlift : (lift (·.readSome (min want r.remaining))).run.run r =
      (.ok (data.take k), { r with input }) :=
    @lift_run _ _ (·.readSome (min want r.remaining)) _ _ (by rw [h.remaining, hread, htake])
  have hsome : ¬ (data.take k).isEmpty = true := by
    simp [hdata]
    omega
  have hleft : r.remaining - (data.take k).length = (data.drop k).length := by
    rw [h.remaining, List.length_take, List.length_drop]
    omega
  have hready : Ready { r with input, remaining := r.remaining - (data.take k).length }
      (data.drop k).length (data.drop k ++ Bytes.crlf ++ rest) :=
    ⟨h.ended, hleft, hrest.trans hdrop⟩
  obtain ⟨r', hclose, hready'⟩ := closeChunk_run hready
  refine ⟨k, r', hk, by omega, hle, ?_, hready'⟩
  rw [chunkData, run_bind_ok (run_get r), run_bind_ok hlift, if_neg hsome]
  exact (run_bind_ok (run_modify _ _)).trans ((run_bind_ok hclose).trans (run_pure _ _))

end HttpRelay.Chunked.Reader
