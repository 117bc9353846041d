import HttpRelay.Proofs.Chunked.BodyDecoding

/-!
# Copying a chunked body

A copy decodes a body and codes it anew, piece by piece. What a pass takes off the input is what
decoding tells, and the pieces that were coded anew decode to the data that they carry.

* `decode_recoded`: the coded pieces and the closing chunk behind them;
* `Copy.pass_cases`: one pass;
* `Copy.pass_close`: one pass while the input is open.
-/

namespace HttpRelay.Chunked

/-! ### Decoding what was coded -/

/-- The closing chunk is the end of a body. -/
theorem decode_terminator (rest : Bytes) : decode (terminator ++ rest) = ⟨[], .ok rest⟩ := by
  have hsize : 0 < UInt64.size := by decide
  have hframe : terminator ++ rest =
      (writtenLine 0).bytes ++ (Terminator.crlf.bytes ++ rest) := by
    rw [terminator_eq, List.append_assoc]
    rfl
  rw [hframe, decode,
    decodeFrom_last (takeSize_of_taken (writtenLine_spells hsize) (writtenLine_taken hsize) _),
    maxTrailerLines, takeTrailers, takeLine_terminator]
  rfl

/-- A chunk is its data in front of what is behind it. -/
theorem decode_chunk {data : Bytes} (hdata : data ≠ []) (hsize : data.length < UInt64.size)
    (rest : Bytes) : decode (chunk data ++ rest) = (decode rest).behind data := by
  let framed : Chunk :=
    ⟨writtenLine data.length, data, .crlf, writtenLine_spells hsize, hdata⟩
  have hframe : chunk data = framed.bytes := by
    rw [chunk_eq, List.append_assoc]
    rfl
  rw [hframe]
  exact decodeFrom_chunk framed (writtenLine_taken hsize) rest

/-- The coding of a piece of data. No data has none, for an empty chunk would end the body. -/
def recode (data : Bytes) : Bytes := if data = [] then [] else chunk data

theorem write_eq_recode (data : Bytes) :
    (if data.isEmpty then .ok [] else Writer.write {} data) = .ok (recode data) := by
  by_cases hdata : data = []
  · simp [recode, hdata]
  · simp [recode, hdata, Writer.write]

/-- Pieces that were coded are decoded to what they carry. -/
theorem decode_recoded {pieces : List Bytes}
    (hsize : ∀ data ∈ pieces, data.length < UInt64.size) (rest : Bytes) :
    decode (pieces.flatMap recode ++ terminator ++ rest) = ⟨pieces.flatten, .ok rest⟩ := by
  induction pieces with
  | nil => exact decode_terminator rest
  | cons data pieces ih =>
    have hrest := ih fun data hdata => hsize data (List.mem_cons_of_mem _ hdata)
    rw [List.flatMap_cons, List.flatten_cons, List.append_assoc, List.append_assoc,
      ← List.append_assoc (List.flatMap recode pieces)]
    by_cases hdata : data = []
    · rw [recode, if_pos hdata, hdata, List.nil_append, List.nil_append, hrest]
    · -- a chunk is decoded to its data, in front of what the later pieces are decoded to
      rw [recode, if_neg hdata, decode_chunk hdata (hsize data List.mem_cons_self), hrest]
      rfl

namespace Copy

variable {input : Buffered} {remaining : Nat} {d : Decoded}

/-- A pass whose read fails carries nothing. -/
theorem pass_error {copy : Copy} {halt : Halt Error} {reader : Reader}
    (h : copy.reader.read copyLength = (.error halt, reader)) :
    copy.pass = { next := { copy with reader }, status := .error halt } := by
  rw [pass, h]

/-- A pass carries as much as it can, or the last piece and the close, or fails where decoding
does. -/
theorem pass_cases (h : Reader.Holds { input, remaining } d) :
    (∃ reader : Reader, reader.ended = false ∧ copyLength ≤ d.data.length ∧
        reader.Holds { d with data := d.data.drop copyLength } ∧
        pass { reader := { input, remaining } } =
          { next := { reader }, seen := d.data.take copyLength,
            wire := recode (d.data.take copyLength), status := .ok false }) ∨
      (∃ (reader : Reader) (writer : Writer), d.data.length < copyLength ∧
        d.result = .ok reader.input.pending ∧
        pass { reader := { input, remaining } } =
          { next := { reader, writer }, seen := d.data,
            wire := recode d.data ++ terminator, status := .ok true }) ∨
      ∃ (reader : Reader) (error : Error), d.result = .error error ∧
        pass { reader := { input, remaining } } =
          { next := { reader }, status := .error (.failed error) } := by
  rcases Reader.readFrom_holds h copyLength [] with ⟨reader, hread, hroom, hopen, hholds⟩ |
    ⟨reader, hread, hroom, hended, hresult⟩ | ⟨reader, error, hread, hresult⟩
  · refine .inl ⟨reader, hopen, hroom, hholds, ?_⟩
    rw [pass, Reader.read, hread, List.reverse_nil, List.nil_append]
    dsimp only
    rw [write_eq_recode]
    simp only [hopen, Bool.false_eq_true, if_false]
  · refine .inr (.inl ⟨reader, { finished := true }, hroom, hresult, ?_⟩)
    rw [pass, Reader.read, hread, List.reverse_nil, List.nil_append]
    dsimp only
    rw [write_eq_recode]
    simp only [hended, if_true, Writer.finish, Bool.false_eq_true, if_false]
  · exact .inr (.inr ⟨reader, error, hresult, pass_error hread⟩)

/-- The same copy when its input ends where it is. -/
def close (copy : Copy) : Copy := { copy with reader := copy.reader.close }

/-- A pass that does not starve is the same when the input ends. -/
theorem pass_close {copy : Copy} (h : copy.pass.status ≠ .error .starved) :
    copy.close.pass = { copy.pass with next := copy.pass.next.close } := by
  rcases hread : copy.reader.read copyLength with ⟨answer, reader⟩
  have hanswer : answer ≠ .error .starved := by
    rintro rfl
    rw [pass, hread] at h
    exact h rfl
  have hclose : copy.close.reader.read copyLength = (answer, reader.close) :=
    Reader.readFrom_close hread hanswer
  rw [pass, pass, hclose, hread]
  cases answer with
  | error halt => rfl
  | ok data =>
    have hwrite : copy.close.writer.write data = copy.writer.write data := rfl
    have hfinish : copy.close.writer.finish = copy.writer.finish := rfl
    have hended : reader.close.ended = reader.ended := rfl
    dsimp only
    rw [hwrite, hfinish, hended]
    split
    · rfl
    · split
      · split <;> rfl
      · rfl

end Copy

end HttpRelay.Chunked
