import HttpRelay.Chunked.Basic

/-!
# Chunked Writer

A `Writer` turns each write into one chunk and closes the body once. What it puts on the wire is
the result of the call.
-/

namespace HttpRelay.Chunked

/-- A body being written. -/
structure Writer where
  /-- The closing chunk was written. -/
  finished : Bool := false
  deriving DecidableEq, Repr

namespace Writer

/-- Write `data` as one chunk. Empty data writes nothing, since an empty chunk would close the
body. -/
def write (w : Writer) (data : Bytes) : Except Error Bytes :=
  if w.finished then .error .finished
  else if data.isEmpty then .ok []
  else .ok (chunk data)

/-- Close the body. Only the first close succeeds. -/
def finish (w : Writer) : Except Error Bytes × Writer :=
  if w.finished then (.error .finished, w)
  else (.ok terminator, { w with finished := true })

/-- A use of a writer. -/
inductive Call where
  | write (data : Bytes)
  | flush
  | finish
  deriving DecidableEq, Repr

/-- What a call puts on the wire, and the writer behind it. -/
def call (w : Writer) : Call → Except Error Bytes × Writer
  | .write data => (w.write data, w)
  | .flush => (.ok [], w)
  | .finish => w.finish

/-- The results of calls made one after another. -/
def calls (w : Writer) : List Call → List (Except Error Bytes) × Writer
  | [] => ([], w)
  | c :: cs =>
    let (result, w) := w.call c
    let (results, w) := w.calls cs
    (result :: results, w)

end Writer

end HttpRelay.Chunked
