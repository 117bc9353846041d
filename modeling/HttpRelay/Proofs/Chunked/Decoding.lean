import HttpRelay.Chunked.Basic
import HttpRelay.Proofs.Transport.Buffered

/-!
# Decoding a chunked body

What a byte string is as a chunked body, well-formed or not: the data of its chunks as far as they
go, and the bytes behind the body or what is wrong with it. Nothing is said of buffers or of how
much is read at a time.

* `takeLine`, `takeSize`, `takeTrailers`: the framing lines at the front of a byte string;
* `decodeFrom`: the body from inside a chunk, or from a chunk boundary;
* `decodeFrom_take`: it does not matter where the data of a chunk is cut.
-/

namespace HttpRelay.Chunked

/-- Take one line, without its terminator. -/
def takeLine (bytes : Bytes) : Except Error (Bytes × Bytes) :=
  let line := Bytes.lineWithin lineReadLimit bytes
  if line.getLast? = some Bytes.lf then .ok (Bytes.chomp line, bytes.drop line.length)
  else if lineReadLimit ≤ line.length then .error (.lineTooLong maxLineLength)
  else .error .unexpectedEof

/-- Take a size line. -/
def takeSize (bytes : Bytes) : Except Error (Nat × Bytes) :=
  match takeLine bytes with
  | .ok (line, rest) => (parseSize line).map fun size => (size, rest)
  | .error (.lineTooLong limit) =>
    .error (.invalidSize s!"size line longer than {limit} bytes")
  | .error error => .error error

/-- Take trailer lines, at most `budget` with the empty one that ends them. -/
def takeTrailers : (budget : Nat) → Bytes → Except Error Bytes
  | 0, _ => .error (.tooManyTrailers maxTrailerLines)
  | budget + 1, bytes =>
    match takeLine bytes with
    | .ok (line, rest) => if line.isEmpty then .ok rest else takeTrailers budget rest
    | .error error => .error error

/-- A line takes at least its line feed. -/
theorem length_lt_of_takeLine {bytes line rest : Bytes} (h : takeLine bytes = .ok (line, rest)) :
    rest.length < bytes.length := by
  rw [takeLine] at h
  split at h
  next hlast =>
    obtain ⟨-, rfl⟩ := Prod.mk.inj (Except.ok.inj h)
    have hle := (Bytes.lineWithin_prefix lineReadLimit bytes).length_le
    have hpos : 0 < (Bytes.lineWithin lineReadLimit bytes).length := by
      refine List.length_pos_iff.mpr fun hnil => ?_
      rw [hnil] at hlast
      cases hlast
    rw [List.length_drop]
    omega
  next => split at h <;> cases h

theorem length_lt_of_takeSize {bytes rest : Bytes} {size : Nat}
    (h : takeSize bytes = .ok (size, rest)) : rest.length < bytes.length := by
  rw [takeSize] at h
  split at h
  next line rest' hline =>
    cases hsize : parseSize line with
    | error error =>
      rw [hsize] at h
      cases h
    | ok size' =>
      rw [hsize] at h
      obtain ⟨-, rfl⟩ := Prod.mk.inj (Except.ok.inj h)
      exact length_lt_of_takeLine hline
  · cases h
  · cases h

/-- What a byte string is as a chunked body. -/
structure Decoded where
  /-- The data of the chunks. -/
  data : Bytes
  /-- The bytes behind the body, or what is wrong with it. -/
  result : Except Error Bytes

/-- The same with some data in front. -/
def Decoded.behind (data : Bytes) (d : Decoded) : Decoded := { d with data := data ++ d.data }

/-- Decode the rest of a body with some data left in its chunk, none at a chunk boundary. -/
def decodeFrom (remaining : Nat) (bytes : Bytes) : Decoded :=
  if remaining = 0 then
    match _h : takeSize bytes with
    | .error error => ⟨[], .error error⟩
    | .ok (size, rest) =>
      if size = 0 then ⟨[], takeTrailers maxTrailerLines rest⟩ else decodeFrom size rest
  else if bytes.length < remaining then ⟨bytes, .error .unexpectedEof⟩
  else
    match _h : takeLine (bytes.drop remaining) with
    | .error error => ⟨bytes.take remaining, .error error⟩
    | .ok (line, rest) =>
      if line.isEmpty then (decodeFrom 0 rest).behind (bytes.take remaining)
      else ⟨bytes.take remaining, .error .invalidTrailer⟩
termination_by bytes.length
decreasing_by
  · exact length_lt_of_takeSize _h
  · have hrest := length_lt_of_takeLine _h
    rw [List.length_drop] at hrest
    omega

/-- Decode a body. -/
def decode (bytes : Bytes) : Decoded := decodeFrom 0 bytes

/-- Decode the rest of a body behind some data of a chunk, the empty line behind its last byte
included. -/
def decodeData (remaining : Nat) (bytes : Bytes) : Decoded :=
  if remaining = 0 then
    match takeLine bytes with
    | .error error => ⟨[], .error error⟩
    | .ok (line, rest) =>
      if line.isEmpty then decodeFrom 0 rest else ⟨[], .error .invalidTrailer⟩
  else decodeFrom remaining bytes

section Steps

variable {remaining size : Nat} {bytes rest : Bytes}

theorem decodeFrom_open (h : takeSize bytes = .ok (size, rest)) (hsize : size ≠ 0) :
    decodeFrom 0 bytes = decodeFrom size rest := by
  rw [decodeFrom, if_pos rfl]
  split <;> rename_i hsame <;> rw [h] at hsame <;> cases hsame
  rw [if_neg hsize]

theorem decodeFrom_last (h : takeSize bytes = .ok (0, rest)) :
    decodeFrom 0 bytes = ⟨[], takeTrailers maxTrailerLines rest⟩ := by
  rw [decodeFrom, if_pos rfl]
  split <;> rename_i hsame <;> rw [h] at hsame <;> cases hsame
  rfl

theorem decodeFrom_of_no_size {error : Error} (h : takeSize bytes = .error error) :
    decodeFrom 0 bytes = ⟨[], .error error⟩ := by
  rw [decodeFrom, if_pos rfl]
  split <;> rename_i hsame <;> rw [h] at hsame <;> cases hsame
  rfl

theorem decodeFrom_nil (hremaining : remaining ≠ 0) :
    decodeFrom remaining [] = ⟨[], .error .unexpectedEof⟩ := by
  rw [decodeFrom, if_neg hremaining, if_pos (by simpa using Nat.pos_of_ne_zero hremaining)]

/-- The data of a chunk that arrived whole, and what is behind it. -/
theorem decodeFrom_whole (hremaining : remaining ≠ 0) (hle : remaining ≤ bytes.length) :
    decodeFrom remaining bytes =
      (decodeData 0 (bytes.drop remaining)).behind (bytes.take remaining) := by
  rw [decodeFrom, if_neg hremaining, if_neg (by omega), decodeData, if_pos rfl]
  split <;> rename_i hline
  · simp [hline, Decoded.behind]
  · rw [hline]
    dsimp only
    split <;> simp [Decoded.behind]

theorem behind_behind (data more : Bytes) (d : Decoded) :
    (d.behind more).behind data = d.behind (data ++ more) := by
  simp [Decoded.behind]

/-- Some of the data of a chunk can be taken first. -/
theorem decodeFrom_take {k : Nat} (hk : 0 < k) (hremaining : k ≤ remaining)
    (hbytes : k ≤ bytes.length) :
    decodeFrom remaining bytes =
      (decodeData (remaining - k) (bytes.drop k)).behind (bytes.take k) := by
  by_cases hall : remaining ≤ bytes.length
  · rw [decodeFrom_whole (by omega) hall]
    by_cases hlast : remaining - k = 0
    · obtain rfl : remaining = k := by omega
      rw [Nat.sub_self]
    · -- the rest of the chunk arrived as well, and its data is behind the data taken
      have hrest : remaining - k ≤ (bytes.drop k).length := by
        rw [List.length_drop]
        omega
      have hinside : decodeData (remaining - k) (bytes.drop k) =
          decodeFrom (remaining - k) (bytes.drop k) := if_neg hlast
      rw [hinside, decodeFrom_whole hlast hrest, behind_behind, List.drop_drop, ← List.take_add,
        Nat.add_sub_cancel' hremaining]
  · -- the chunk is cut short with or without the data taken
    have hshort : (bytes.drop k).length < remaining - k := by
      rw [List.length_drop]
      omega
    rw [decodeFrom, if_neg (by omega), if_pos (by omega), decodeData, if_neg (by omega), decodeFrom,
      if_neg (by omega), if_pos hshort]
    simp [Decoded.behind]

/-- The data of a body is among its bytes. -/
theorem length_data_decodeFrom_le (remaining : Nat) (bytes : Bytes) :
    (decodeFrom remaining bytes).data.length ≤ bytes.length := by
  induction remaining, bytes using decodeFrom.induct with
  | case1 bytes error hsize => simp [decodeFrom_of_no_size hsize]
  | case2 bytes rest hsize => simp [decodeFrom_last hsize]
  | case3 bytes size rest hsize hopen ih =>
    have hrest := length_lt_of_takeSize hsize
    rw [decodeFrom_open hsize hopen]
    omega
  | case4 remaining bytes hremaining hshort =>
    rw [decodeFrom, if_neg hremaining, if_pos hshort]
  | case5 remaining bytes hremaining hwhole error hline =>
    simp only [decodeFrom_whole hremaining (Nat.not_lt.mp hwhole), decodeData, hline,
      Decoded.behind, if_true, List.append_nil, List.length_take]
    exact Nat.min_le_right _ _
  | case6 remaining bytes hremaining hwhole line rest hline hempty ih =>
    have hrest := length_lt_of_takeLine hline
    simp only [decodeFrom_whole hremaining (Nat.not_lt.mp hwhole), decodeData, hline, hempty,
      Decoded.behind, if_true, List.length_append, List.length_take, List.length_drop] at hrest ⊢
    omega
  | case7 remaining bytes hremaining hwhole line rest hline hsome =>
    simp only [decodeFrom_whole hremaining (Nat.not_lt.mp hwhole), decodeData, hline, hsome,
      Decoded.behind, if_true, Bool.false_eq_true, if_false, List.append_nil, List.length_take]
    exact Nat.min_le_right _ _

theorem length_data_decode_le (bytes : Bytes) : (decode bytes).data.length ≤ bytes.length :=
  length_data_decodeFrom_le 0 bytes

end Steps

end HttpRelay.Chunked
