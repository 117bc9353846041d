import HttpRelay.Text.Quoted

/-!
# Malformed Heads

What can be wrong with the head of a message: its syntax, or what its fields say about the
length of the body.
-/

namespace HttpRelay.Http

/-- A breach of the syntax of heads. -/
inductive SyntaxError where
  | headerName
  | headerValue
  | newLine
  | status
  | token
  | tooManyHeaders
  | version
  deriving DecidableEq, Repr

/-- The text shown for a breach. -/
def SyntaxError.message : SyntaxError → String
  | headerName => "invalid header name"
  | headerValue => "invalid header value"
  | newLine => "invalid new line"
  | status => "invalid response status"
  | token => "invalid token"
  | tooManyHeaders => "too many headers"
  | version => "invalid HTTP version"

/-- Whether a message asks or answers. -/
inductive MessageKind where
  | request
  | response
  deriving DecidableEq, Repr

/-- The word for a kind of message. -/
def MessageKind.name : MessageKind → String
  | request => "request"
  | response => "response"

/-- Why a head is malformed. -/
inductive HeadError where
  /-- The input ends before the head does. -/
  | incomplete (kind : MessageKind)
  /-- The syntax is broken. -/
  | invalid (kind : MessageKind) (error : SyntaxError)
  /-- A Content-Length field that is no length. -/
  | invalidContentLength (value : String)
  /-- Content-Length fields that disagree. -/
  | conflictingContentLength
  /-- A request in a transfer coding that does not tell where its body ends. -/
  | codingNotChunked
  /-- A head that the relay does not take for another reason. -/
  | refused (reason : String)
  deriving DecidableEq, Repr

/-- The text shown for a malformed head. -/
def HeadError.message : HeadError → String
  | incomplete kind => "incomplete " ++ kind.name ++ " head"
  | invalid kind error => "invalid " ++ kind.name ++ ": " ++ error.message
  | invalidContentLength value => "invalid Content-Length " ++ Text.quoted value
  | conflictingContentLength => "conflicting Content-Length values"
  | codingNotChunked => "request Transfer-Encoding does not end in chunked"
  | refused reason => reason

end HttpRelay.Http
