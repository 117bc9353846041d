/-!
# Transport Failures

The ways in which the transport below the relay can fail. A failure is known by its kind alone.
-/

namespace HttpRelay

/-- Why a transport operation failed. -/
inductive IoFailure where
  | unexpectedEof
  | brokenPipe
  | connectionReset
  | connectionAborted
  | connectionRefused
  | notConnected
  | addrInUse
  | addrNotAvailable
  | networkUnreachable
  | hostUnreachable
  | permissionDenied
  | timedOut
  | notFound
  | invalidInput
  | invalidData
  | wouldBlock
  | other
  deriving DecidableEq, Repr, Inhabited

namespace IoFailure

/-- The name of the kind. -/
def name : IoFailure → String
  | unexpectedEof => "UnexpectedEof"
  | brokenPipe => "BrokenPipe"
  | connectionReset => "ConnectionReset"
  | connectionAborted => "ConnectionAborted"
  | connectionRefused => "ConnectionRefused"
  | notConnected => "NotConnected"
  | addrInUse => "AddrInUse"
  | addrNotAvailable => "AddrNotAvailable"
  | networkUnreachable => "NetworkUnreachable"
  | hostUnreachable => "HostUnreachable"
  | permissionDenied => "PermissionDenied"
  | timedOut => "TimedOut"
  | notFound => "NotFound"
  | invalidInput => "InvalidInput"
  | invalidData => "InvalidData"
  | wouldBlock => "WouldBlock"
  | other => "Other"

/-- Every kind. -/
def all : List IoFailure :=
  [unexpectedEof, brokenPipe, connectionReset, connectionAborted, connectionRefused, notConnected,
    addrInUse, addrNotAvailable, networkUnreachable, hostUnreachable, permissionDenied, timedOut,
    notFound, invalidInput, invalidData, wouldBlock, other]

/-- The kind with a given name. -/
def ofName? (name : String) : Option IoFailure :=
  all.find? (·.name == name)

/-- A peer that went away, as opposed to a genuine fault. -/
def isDisconnect : IoFailure → Bool
  | unexpectedEof | connectionReset | connectionAborted | brokenPipe => true
  | _ => false

end IoFailure

end HttpRelay
