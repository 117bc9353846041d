import HttpRelay.Text.Quoted
import HttpRelay.Text.Utf8
import HttpRelay.Transport.Buffered

/-!
# Chunked Transfer Coding

A chunked body is a sequence of chunks, each a line with its size in hexadecimal, that many
bytes and an empty line, closed by a chunk of size zero, trailer lines and an empty line. This
module holds what can go wrong and the meaning of a size line.
-/

namespace HttpRelay.Chunked

/-- Why a chunked body could not be read or written. -/
inductive Error where
  /-- The transport failed. -/
  | io (failure : IoFailure)
  /-- The connection closed before the body was complete. -/
  | unexpectedEof
  /-- A size line that is no size. -/
  | invalidSize (line : String)
  /-- The data of a chunk runs on past its size. -/
  | invalidTrailer
  /-- A framing line without end. -/
  | lineTooLong (limit : Nat)
  /-- Trailer lines without end. -/
  | tooManyTrailers (limit : Nat)
  /-- A write behind the closing chunk. -/
  | finished
  deriving DecidableEq, Repr

namespace Error

/-- The text shown for an error. -/
def message : Error → String
  | io failure => "I/O error: " ++ failure.name
  | unexpectedEof => "unexpected end of stream inside chunked body"
  | invalidSize line => "invalid chunk size line: " ++ Text.quoted line
  | invalidTrailer => "chunk data not followed by an empty line"
  | lineTooLong limit => s!"chunk framing line exceeds {limit} bytes"
  | tooManyTrailers limit => s!"more than {limit} trailer fields"
  | finished => "chunked stream already finished"

end Error

/-- Most bytes of a size or trailer line. -/
def maxLineLength : Nat := 1024

/-- Most bytes read in search of a line end: a line and its terminator. -/
def lineReadLimit : Nat := maxLineLength + 2

/-- Most lines read in search of the end of the trailers. -/
def maxTrailerLines : Nat := 64

/-- Most hexadecimal digits of a size. -/
def maxSizeDigits : Nat := 16

/-- The size that a size line gives, whatever extensions follow its first semicolon. -/
def parseSize (line : Bytes) : Except Error Nat :=
  match Text.Utf8.decode? line with
  | none => .error (.invalidSize (Text.Utf8.decodeLossy line))
  | some text =>
    let size := Text.trimList Text.isSpaceOrTab (text.toList.takeWhile (· != ';'))
    if size.length ≤ maxSizeDigits then
      match Text.hexadecimal? size with
      | some n => .ok n
      | none => .error (.invalidSize text)
    else .error (.invalidSize text)

/-- The chunk that carries `data`. -/
def chunk (data : Bytes) : Bytes :=
  Bytes.ofText (Text.hexUpper data.length) ++ Bytes.crlf ++ data ++ Bytes.crlf

/-- The closing chunk, with no trailers. -/
def terminator : Bytes :=
  Bytes.ofText "0" ++ Bytes.crlf ++ Bytes.crlf

end HttpRelay.Chunked
