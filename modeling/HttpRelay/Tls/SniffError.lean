import HttpRelay.Bytes.Cursor
import HttpRelay.Tls.Version
import HttpRelay.Transport.IoFailure

/-!
# Sniffing Errors

Whatever is wrong with a client hello fails the whole parse, so that the caller can fail closed.
-/

namespace HttpRelay.Tls

/-- Why a client hello could not be read. -/
inductive SniffError where
  /-- The transport failed. -/
  | io (failure : IoFailure)
  /-- A field runs past the end of the data. -/
  | truncated (short : UnexpectedEnd)
  /-- The record holds something else, such as plain HTTP on a TLS port. -/
  | notHandshake (contentType : UInt8)
  /-- The handshake message is no client hello. -/
  | unsupported (messageType : HandshakeType)
  /-- A length does not fill what it should fill. -/
  | lengthMismatch (declared actual : Nat)
  /-- The record is larger than a record may be. -/
  | recordTooLarge (length : Nat)
  /-- An extension is malformed. -/
  | invalidExtension (kind : ExtensionType) (reason : String)
  deriving DecidableEq, Repr

/-- The text shown for an error. -/
def SniffError.message : SniffError → String
  | io failure => "I/O error while sniffing: " ++ failure.name
  | truncated short => "truncated TLS data: " ++ short.message
  | notHandshake contentType =>
    s!"not a TLS handshake record (content type {contentType.toNat})"
  | unsupported messageType => "unsupported handshake message: " ++ messageType.name
  | lengthMismatch declared actual =>
    s!"length mismatch: declared {declared} bytes, found {actual}"
  | recordTooLarge length => s!"TLS record of {length} bytes exceeds the maximum fragment size"
  | invalidExtension kind reason => "malformed " ++ kind.name ++ " extension: " ++ reason

/-- A read of TLS data. -/
abbrev Read (α : Type) := Cursor.Read SniffError α

namespace Read

/-- A primitive read, short data counting as truncated. -/
def lift {α : Type} (read : Cursor.Read UnexpectedEnd α) : Read α :=
  Cursor.orFail read .truncated

/-- A result as a read that takes nothing. -/
def ofExcept {α : Type} : Except SniffError α → Read α
  | .ok a => return a
  | .error e => throw e

end Read

end HttpRelay.Tls
