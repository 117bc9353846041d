import HttpRelay.Proofs.Chunked.Decoding
import HttpRelay.Proofs.Chunked.ReaderSteps

/-!
# Steps of a reader at the end of its input

What each step of a reader does when its input has arrived to its end, well-formed or not: it takes
off the pending bytes what the decoding of them takes, and fails where and as that fails.

* `Reader.Sealed`: a reader inside a body whose input is all there;
* `Reader.Takes`: what a read of the framing takes off the pending bytes;
* `Reader.openChunk_cases`, `Reader.chunkData_cases`: the two steps of a round.
-/

namespace HttpRelay.Chunked

open Outcome

namespace Reader

variable {r : Reader}

/-- A reader inside a body whose input has arrived to its end. -/
structure Sealed (r : Reader) (remaining : Nat) (pending : Bytes) : Prop extends
    Ready r remaining pending where
  closed : r.input.feed.closed = true

/-- A read that takes from the pending bytes what `taken` tells, or fails as it tells. -/
def Takes {α : Type} (r : Reader) (remaining : Nat) (read : Read α)
    (taken : Except Error (α × Bytes)) : Prop :=
  match taken with
  | .ok (a, rest) => ∃ r', read.run.run r = (.ok a, r') ∧ r'.Sealed remaining rest
  | .error error => ∃ r', read.run.run r = (.error (.failed error), r')

/-- Behind a read with a value, what the next read takes is what both take. -/
theorem Takes.of_bind {α β : Type} {r' : Reader} {remaining : Nat} {read : Read α}
    {next : α → Read β} {a : α} {taken : Except Error (β × Bytes)}
    (hread : read.run.run r = (.ok a, r')) (h : r'.Takes remaining (next a) taken) :
    r.Takes remaining (read >>= next) taken := by
  unfold Takes at h ⊢
  rw [run_bind_ok hread]
  exact h

/-- There is a value exactly if something is taken. -/
theorem Takes.exists_ok_iff {α : Type} {remaining : Nat} {read : Read α}
    {taken : Except Error (α × Bytes)} (h : r.Takes remaining read taken) :
    (∃ a r', read.run.run r = (.ok a, r')) ↔ ∃ a, taken = .ok a := by
  cases taken with
  | ok value =>
    obtain ⟨r', hrun, -⟩ := h
    exact ⟨fun _ => ⟨value, rfl⟩, fun _ => ⟨value.1, r', hrun⟩⟩
  | error error =>
    obtain ⟨r', hrun⟩ := h
    rw [hrun]
    constructor
    · rintro ⟨a, r'', hvalue⟩
      cases (Prod.mk.inj hvalue).1
    · rintro ⟨value, hvalue⟩
      cases hvalue

theorem line_takes {remaining : Nat} {bytes : Bytes} (h : r.Sealed remaining bytes) :
    r.Takes remaining line (takeLine bytes) := by
  obtain ⟨input, hread, hrest, hclosed⟩ :=
    Buffered.readLineFrom_eq (ε := IoFailure) [] lineReadLimit (.inl h.closed)
  rw [h.pending] at hread hrest
  have hlift : (lift (·.readLine lineReadLimit)).run.run r =
      (.ok (Bytes.lineWithin lineReadLimit bytes), { r with input }) := lift_run hread
  have hpending : input.pending =
      bytes.drop (Bytes.lineWithin lineReadLimit bytes).length :=
    calc input.pending = (Bytes.lineWithin lineReadLimit bytes ++ input.pending).drop
          (Bytes.lineWithin lineReadLimit bytes).length := by simp
      _ = bytes.drop (Bytes.lineWithin lineReadLimit bytes).length := by rw [hrest]
  rw [takeLine]
  split
  next hlast =>
    refine ⟨{ r with input }, ?_, ⟨⟨h.ended, h.remaining, hpending⟩, hclosed.trans h.closed⟩⟩
    rw [line, run_bind_ok hlift, if_pos hlast, run_pure]
  next hlast =>
    split
    next hlong =>
      refine ⟨{ r with input }, ?_⟩
      rw [line, run_bind_ok hlift, if_neg hlast, if_pos hlong]
      rfl
    next hlong =>
      refine ⟨{ r with input }, ?_⟩
      rw [line, run_bind_ok hlift, if_neg hlast, if_neg hlong]
      rfl

theorem sizeLine_takes {remaining : Nat} {bytes : Bytes} (h : r.Sealed remaining bytes) :
    r.Takes remaining sizeLine (takeSize bytes) := by
  have hline := line_takes h
  rw [takeSize]
  cases htaken : takeLine bytes with
  | ok taken =>
    obtain ⟨text, rest⟩ := taken
    rw [htaken] at hline
    obtain ⟨r', hrun, hsealed⟩ := hline
    rw [sizeLine]
    refine Takes.of_bind (run_tryCatch_ok hrun) ?_
    dsimp only
    cases parseSize text with
    | ok size => exact ⟨r', rfl, hsealed⟩
    | error error => exact ⟨r', rfl⟩
  | error error =>
    rw [htaken] at hline
    obtain ⟨r', hrun⟩ := hline
    -- a line that is too long has an error of its own here, and the others are handed on
    cases error
    all_goals
      refine ⟨r', run_bind_error ?_⟩
      rw [run_tryCatch_error hrun]
      rfl

theorem trailers_takes {remaining : Nat} {bytes : Bytes} (h : r.Sealed remaining bytes)
    (budget : Nat) :
    r.Takes remaining (trailersWithin budget)
      ((takeTrailers budget bytes).map fun rest => ((), rest)) := by
  induction budget generalizing r bytes with
  | zero => exact ⟨r, rfl⟩
  | succ budget ih =>
    have hline := line_takes h
    rw [takeTrailers]
    cases htaken : takeLine bytes with
    | ok taken =>
      obtain ⟨text, rest⟩ := taken
      rw [htaken] at hline
      obtain ⟨r', hrun, hsealed⟩ := hline
      rw [trailersWithin]
      refine Takes.of_bind hrun ?_
      dsimp only
      split
      · exact ⟨r', rfl, hsealed⟩
      · exact ih hsealed
    | error error =>
      rw [htaken] at hline
      obtain ⟨r', hrun⟩ := hline
      exact ⟨r', run_bind_error hrun⟩

/-- At a chunk boundary, the next chunk is opened, the body ends, or one of the two fails. -/
theorem openChunk_cases {remaining : Nat} {bytes : Bytes} (h : r.Sealed remaining bytes) :
    (∃ r' remaining' bytes', openChunk.run.run r = (.ok (), r') ∧ remaining' ≠ 0 ∧
        r'.Sealed remaining' bytes' ∧ decodeFrom remaining bytes = decodeFrom remaining' bytes') ∨
      (∃ r', openChunk.run.run r = (.ok (), r') ∧ r'.ended = true ∧
        decodeFrom remaining bytes = ⟨[], .ok r'.input.pending⟩) ∨
      ∃ r' error, openChunk.run.run r = (.error (.failed error), r') ∧
        decodeFrom remaining bytes = ⟨[], .error error⟩ := by
  by_cases hinside : remaining = 0
  · subst hinside
    have hsize := sizeLine_takes h
    rw [openChunk, run_bind_ok (run_get r), if_pos h.remaining]
    cases htaken : takeSize bytes with
    | error error =>
      rw [htaken] at hsize
      obtain ⟨r', hrun⟩ := hsize
      exact .inr (.inr ⟨r', error, run_bind_error hrun, decodeFrom_of_no_size htaken⟩)
    | ok taken =>
      obtain ⟨size, rest⟩ := taken
      rw [htaken] at hsize
      obtain ⟨r', hrun, hsealed⟩ := hsize
      rw [run_bind_ok hrun]
      by_cases hlast : size = 0
      · -- the closing chunk: what is left to go wrong are the trailers
        subst hlast
        rw [if_pos rfl]
        have htrailers := trailers_takes hsealed maxTrailerLines
        rw [decodeFrom_last htaken]
        cases hbehind : takeTrailers maxTrailerLines rest with
        | error error =>
          rw [hbehind] at htrailers
          obtain ⟨r'', hrun'⟩ := htrailers
          exact .inr (.inr ⟨r'', error, run_bind_error hrun', rfl⟩)
        | ok behind =>
          rw [hbehind] at htrailers
          obtain ⟨r'', hrun', hsealed'⟩ := htrailers
          refine .inr (.inl ⟨{ r'' with ended := true }, ?_, rfl, by rw [← hsealed'.pending]⟩)
          exact run_bind_ok hrun'
      · rw [if_neg hlast, run_modify]
        refine .inl ⟨_, size, rest, rfl, hlast, ?_, decodeFrom_open htaken hlast⟩
        exact ⟨⟨hsealed.ended, rfl, hsealed.pending⟩, hsealed.closed⟩
  · exact .inl ⟨r, remaining, bytes, openChunk_skip (Nat.pos_of_ne_zero hinside) h.toReady, hinside,
      h, rfl⟩

/-- Behind some data of a chunk, the empty line behind its last byte is read. -/
theorem closeChunk_cases {remaining : Nat} {bytes : Bytes} (h : r.Sealed remaining bytes) :
    (∃ r' bytes', closeChunk.run.run r = (.ok (), r') ∧ r'.Sealed remaining bytes' ∧
        decodeData remaining bytes = decodeFrom remaining bytes') ∨
      ∃ r' error, closeChunk.run.run r = (.error (.failed error), r') ∧
        decodeData remaining bytes = ⟨[], .error error⟩ := by
  rw [closeChunk, run_bind_ok (run_get r), h.remaining, decodeData]
  split
  next hlast =>
    have hline := line_takes h
    cases htaken : takeLine bytes with
    | error error =>
      rw [htaken] at hline
      obtain ⟨r', hrun⟩ := hline
      exact .inr ⟨r', error, run_bind_error hrun, rfl⟩
    | ok taken =>
      obtain ⟨text, rest⟩ := taken
      rw [htaken] at hline
      obtain ⟨r', hrun, hsealed⟩ := hline
      rw [run_bind_ok hrun]
      dsimp only
      split
      · exact .inl ⟨r', rest, rfl, hsealed, by rw [hlast]⟩
      · exact .inr ⟨r', .invalidTrailer, rfl, rfl⟩
  next => exact .inl ⟨r, bytes, rfl, h, rfl⟩

/-- Inside a chunk, some of its data is read, or the input or the chunk ends as it must not. -/
theorem chunkData_cases {remaining want : Nat} {bytes : Bytes} (h : r.Sealed remaining bytes)
    (hremaining : remaining ≠ 0) (hwant : 0 < want) :
    (∃ k r' bytes', 0 < k ∧ k ≤ want ∧ k ≤ bytes.length ∧
        (chunkData want).run.run r = (.ok (bytes.take k), r') ∧ r'.Sealed (remaining - k) bytes' ∧
        decodeFrom remaining bytes =
          (decodeFrom (remaining - k) bytes').behind (bytes.take k)) ∨
      ∃ r' error, (chunkData want).run.run r = (.error (.failed error), r') ∧
        (decodeFrom remaining bytes).result = .error error := by
  rw [chunkData, run_bind_ok (run_get r), h.remaining]
  by_cases hnil : bytes = []
  · subst hnil
    obtain ⟨input, hread, -⟩ := Buffered.readSome_end (ε := IoFailure) (n := min want remaining)
      h.pending h.closed
    have hlift : (lift (·.readSome (min want remaining))).run.run r = (.ok [], { r with input }) :=
      @lift_run _ _ (·.readSome (min want remaining)) _ _ hread
    rw [run_bind_ok hlift, decodeFrom_nil hremaining]
    exact .inr ⟨_, .unexpectedEof, rfl, rfl⟩
  · -- How much is read depends on the buffer, but it is no more than the chunk has left.
    obtain ⟨k, input, hk, hlimit, hle, hread, hrest, hclosed⟩ :=
      @Buffered.readSome_eq IoFailure _ (min want remaining) (by omega)
        (by rw [h.pending]; exact hnil)
    rw [h.pending] at hle hread hrest
    have hlift : (lift (·.readSome (min want remaining))).run.run r =
        (.ok (bytes.take k), { r with input }) :=
      @lift_run _ _ (·.readSome (min want remaining)) _ _ hread
    have hcount : (bytes.take k).length = k := by
      rw [List.length_take]
      omega
    have hsome : ¬ (bytes.take k).isEmpty = true := by
      rw [List.isEmpty_iff_length_eq_zero, hcount]
      omega
    have hsealed : Sealed { r with input, remaining := r.remaining - (bytes.take k).length }
        (remaining - k) (bytes.drop k) :=
      ⟨⟨h.ended, by rw [hcount, h.remaining], hrest⟩, hclosed.trans h.closed⟩
    rw [run_bind_ok hlift, if_neg hsome, run_bind_ok (run_modify _ _),
      decodeFrom_take hk (by omega) hle]
    rcases closeChunk_cases hsealed with ⟨r', bytes', hrun, hsealed', hdecode⟩ |
      ⟨r', error, hrun, hdecode⟩
    · exact .inl ⟨k, r', bytes', hk, by omega, hle, run_bind_ok hrun, hsealed', by rw [hdecode]⟩
    · exact .inr ⟨r', error, run_bind_error hrun, by rw [hdecode]; rfl⟩

end Reader

end HttpRelay.Chunked
