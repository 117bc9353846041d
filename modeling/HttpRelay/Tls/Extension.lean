import HttpRelay.Tls.SniffError

/-!
# Extensions

An extension is a type, a length and a body. Host names and protocol names are decoded; any
other body is kept as it is.
-/

namespace HttpRelay.Tls

/-- An extension of a client hello. -/
inductive Extension where
  /-- Host names. Names of another kind are dropped. -/
  | serverName (names : List String)
  /-- Protocol names, the one preferred most first. -/
  | alpn (protocols : List String)
  | unknown (code : Nat) (data : Bytes)
  deriving DecidableEq, Repr

namespace Extension

/-- The type of an extension. -/
def kind : Extension → ExtensionType
  | serverName _ => .serverName
  | alpn _ => .alpn
  | unknown code _ => .other code

/-- ASCII text, with a question mark for every other octet. -/
def asciiLossy (bytes : Bytes) : String :=
  String.ofList (bytes.map fun b => if b < 128 then Char.ofNat b.toNat else '?')

/-- The name type of host names. -/
def hostNameType : UInt8 := 0

/-- Read a field of an extension, short data meaning what `reason` says. -/
def field {α : Type} (kind : ExtensionType) (reason : String)
    (read : Cursor.Read UnexpectedEnd α) : Read α :=
  Cursor.orFail read fun _ => .invalidExtension kind reason

/-- Read one name of a server name list, `none` if it is no host name. -/
def serverNameEntry : Read (Option String) := do
  let nameType ← field .serverName "truncated entry" Cursor.octet
  let name ← field .serverName "name length exceeds list" (Cursor.vector 2)
  return if nameType = hostNameType then some (asciiLossy name) else none

/-- Read one name of a protocol list. -/
def alpnEntry : Read String := do
  let name ← field .alpn "protocol length exceeds list" (Cursor.vector 1)
  if name.isEmpty then throw (.invalidExtension .alpn "empty protocol name")
  return asciiLossy name

/-- Decode a body that is one list of entries, its length in front. -/
def decodeList {α : Type} (kind : ExtensionType) (trailing : String) (entry : Read α)
    (body : Bytes) : Except SniffError (List α) := do
  let outer := do
    let list ← field kind "list length exceeds body" (Cursor.vector 2)
    unless ← Cursor.atEnd do throw (.invalidExtension kind trailing)
    return list
  let list ← ((Cursor.ofBytes body).run outer).1
  ((Cursor.ofBytes list).run (Cursor.many entry)).1

/-- Decode the body of an extension. -/
def decode (code : Nat) (body : Bytes) : Except SniffError Extension :=
  match ExtensionType.ofCode code with
  | .serverName => do
    let names ← decodeList .serverName "trailing bytes after name list" serverNameEntry body
    return serverName (names.filterMap id)
  | .alpn => do
    return alpn (← decodeList .alpn "trailing bytes after protocol list" alpnEntry body)
  | .other code => return unknown code body

/-- Read one extension. -/
def read : Read Extension := do
  let code ← Read.lift (Cursor.be 2)
  let body ← Read.lift (Cursor.vector 2)
  Read.ofExcept (decode code body)

end Extension

end HttpRelay.Tls
