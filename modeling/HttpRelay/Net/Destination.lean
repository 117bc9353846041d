import HttpRelay.Net.Address

/-!
# Destinations

What a connection can be made to: a socket address, or a port of a host known by name.
-/

namespace HttpRelay.Net

/-- What a connection is made to. -/
inductive Destination where
  | address (a : SocketAddress)
  | host (name : String) (port : Nat)
  deriving DecidableEq, Repr

namespace Destination

/-- Split a text at its last colon. -/
def splitPort? (text : String) : Option (String × String) :=
  let reversed := text.toList.reverse
  let port := reversed.takeWhile (· ≠ ':')
  match reversed.drop port.length with
  | _ :: name => some (String.ofList name.reverse, String.ofList port.reverse)
  | [] => none

/-- The destination that a text spells. -/
def parse? (text : String) : Option Destination :=
  match SocketAddress.parse? text with
  | some a => some (address a)
  | none => do
    let (name, port) ← splitPort? text
    return host name (← Text.unsigned? 65536 port)

end Destination

end HttpRelay.Net
