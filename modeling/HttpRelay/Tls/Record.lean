import HttpRelay.Tls.SniffError

/-!
# Record Layer

The five octets in front of every TLS record.
-/

namespace HttpRelay.Tls

/-- The header of a record. -/
structure RecordHeader where
  contentType : ContentType
  version : Version
  /-- Number of bytes in the record. -/
  length : Nat
  deriving DecidableEq, Repr

namespace RecordHeader

/-- Number of octets of a header. -/
def size : Nat := 5

/-- Most bytes of a record: the largest plaintext and the expansion that encryption may add. -/
def maxFragment : Nat := 16384 + 2048

/-- Read the header of a handshake record. -/
def read : Read RecordHeader := do
  let code ← Read.lift Cursor.octet
  let major ← Read.lift (Cursor.be 1)
  let minor ← Read.lift (Cursor.be 1)
  let length ← Read.lift (Cursor.be 2)
  let contentType := ContentType.ofCode code
  if contentType ≠ .handshake then throw (.notHandshake code)
  if maxFragment < length then throw (.recordTooLarge length)
  return { contentType, version := ⟨major, minor⟩, length }

end RecordHeader

end HttpRelay.Tls
