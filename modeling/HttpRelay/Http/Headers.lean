import HttpRelay.Text.Token
import HttpRelay.Transport.Buffered

/-!
# Header Fields

The header fields of a message in their order. Names keep their case but are compared without
regard to it.
-/

namespace HttpRelay.Http

/-- A header field. -/
structure Field where
  name : String
  value : String
  deriving DecidableEq, Repr

/-- Whether two field names are the same, up to ASCII case. -/
def sameName (a b : String) : Bool := Text.eqIgnoreCase a b

/-- The header fields of a message. -/
structure Headers where
  fields : List Field := []
  deriving DecidableEq, Repr

namespace Headers

/-- Whether a field has a name. -/
def isNamed (name : String) (field : Field) : Bool := sameName field.name name

/-- The values of every field with a name, in order. -/
def getAll (h : Headers) (name : String) : List String :=
  (h.fields.filter (isNamed name)).map Field.value

/-- The value of the first field with a name. -/
def get? (h : Headers) (name : String) : Option String := (h.getAll name).head?

/-- Whether there is a field with a name. -/
def contains (h : Headers) (name : String) : Bool := h.fields.any (isNamed name)

/-- Whether any field with a name lists a token. -/
def hasToken (h : Headers) (name token : String) : Bool :=
  (h.getAll name).any (Text.listHasToken · token)

/-- Add a field at the end. -/
def append (h : Headers) (name value : String) : Headers :=
  { fields := h.fields ++ [⟨name, value⟩] }

/-- Remove every field with a name. -/
def remove (h : Headers) (name : String) : Headers :=
  { fields := h.fields.filter (!isNamed name ·) }

/-- Put one field, at the end, in the place of every field with its name. -/
def set (h : Headers) (name value : String) : Headers := (h.remove name).append name value

/-- Number of fields. -/
def size (h : Headers) : Nat := h.fields.length

/-- The fields that concern one connection only (RFC 9110, section 7.6.1). -/
def hopByHop : List String :=
  ["connection", "keep-alive", "proxy-connection", "proxy-authenticate", "proxy-authorization",
    "te", "trailer", "transfer-encoding", "upgrade"]

/-- The field names that the Connection fields list, in lower case. -/
def connectionNames (h : Headers) : List String :=
  ((h.getAll "connection").flatMap Text.listElements).filterMap fun name =>
    if name.isEmpty then none else some (Text.asciiLower name)

/-- Remove what concerns one connection only, with what its Connection fields list. -/
def stripHopByHop (h : Headers) : Headers :=
  let listed := h.connectionNames
  { fields := h.fields.filter fun field =>
      let name := Text.asciiLower field.name
      !hopByHop.contains name && !listed.contains name }

/-- The fields as they are written, each on a line, and the empty line behind them. -/
def render (h : Headers) : Bytes :=
  h.fields.flatMap (fun field =>
    Bytes.ofText field.name ++ Bytes.ofText ": " ++ Bytes.ofText field.value ++ Bytes.crlf)
    ++ Bytes.crlf

end Headers

end HttpRelay.Http
