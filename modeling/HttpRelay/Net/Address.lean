import HttpRelay.Text.Number
import HttpRelay.Text.Scan

/-!
# Internet Addresses

Addresses of both families with their texts: dotted octets, and hexadecimal groups with the
longest run of zeros left out (RFC 5952). A socket address adds a port, and for version 6 a
scope.
-/

namespace HttpRelay.Net

open Text (Scan)
open Text.Scan (char whole)

/-- An Internet address. -/
inductive IpAddress where
  | v4 (a b c d : UInt8)
  | v6 (g₀ g₁ g₂ g₃ g₄ g₅ g₆ g₇ : UInt16)
  deriving DecidableEq, Repr

namespace IpAddress

/-- The text of four octets. -/
def dotted (octets : List Nat) : String := ".".intercalate (octets.map toString)

/-- Start and length of the longest run of zeros, the first of those equally long. The run under
way starts at `start`, and `best` is the longest one behind it. -/
def zeroRun (index : Nat) (start : Option Nat) (best : Nat × Nat) : List Nat → Nat × Nat
  | [] => best
  | g :: gs =>
    if g = 0 then
      let start := start.getD index
      let length := index + 1 - start
      zeroRun (index + 1) (some start) (if best.2 < length then (start, length) else best) gs
    else zeroRun (index + 1) none best gs

/-- The text of groups with colons between them. -/
def groupText (groups : List Nat) : String := ":".intercalate (groups.map Text.hex)

/-- The text of eight groups. -/
def groupsText (groups : List Nat) : String :=
  match groups with
  | [0, 0, 0, 0, 0, 0xFFFF, hi, lo] =>
    "::ffff:" ++ dotted [hi / 256, hi % 256, lo / 256, lo % 256]
  | _ =>
    let (start, length) := zeroRun 0 none (0, 0) groups
    if 1 < length then
      groupText (groups.take start) ++ "::" ++ groupText (groups.drop (start + length))
    else groupText groups

/-- The text of an address. -/
def display : IpAddress → String
  | v4 a b c d => dotted [a.toNat, b.toNat, c.toNat, d.toNat]
  | v6 g₀ g₁ g₂ g₃ g₄ g₅ g₆ g₇ =>
    groupsText ([g₀, g₁, g₂, g₃, g₄, g₅, g₆, g₇].map UInt16.toNat)

/-- Take a decimal octet of at most three digits without a leading zero. -/
def octet : Scan Nat := do
  let ds ← Scan.takeWhile Char.isDigit
  if 3 < ds.length || (1 < ds.length && ds.head? = some '0') then failure
  let some n := Text.decimal? ds | failure
  if n < 256 then return n else failure

/-- Take four octets. -/
def fourOctets : Scan (List Nat) := do
  let a ← octet
  char '.'
  let b ← octet
  char '.'
  let c ← octet
  char '.'
  let d ← octet
  return [a, b, c, d]

/-- Take a group of one to four hexadecimal digits. -/
def group : Scan Nat := do
  let ds ← Scan.takeWhile Text.isHexDigit
  if 4 < ds.length then failure
  let some n := Text.hexadecimal? ds | failure
  return n

/-- The groups at the front of a text, at most `limit`, behind `count` others, and whether they
end in dotted octets. Octets count as two groups. -/
def groupsFrom (count : Nat) : (limit : Nat) → List Char → (List Nat × Bool) × List Char
  | 0, cs => (([], false), cs)
  | limit + 1, cs =>
    let separated {α : Type} (scan : Scan α) : Scan α := do
      if count ≠ 0 then char ':'
      scan
    match if limit = 0 then none else (separated fourOctets).run cs with
    | some (octets, rest) =>
      let at_ (i : Nat) : Nat := octets.getD i 0
      (([at_ 0 * 256 + at_ 1, at_ 2 * 256 + at_ 3], true), rest)
    | none =>
      match (separated group).run cs with
      | some (g, rest) =>
        let ((gs, dottedEnd), rest) := groupsFrom (count + 1) limit rest
        ((g :: gs, dottedEnd), rest)
      | none => (([], false), cs)

/-- The address that eight groups spell. -/
def ofGroups? : List Nat → Option IpAddress
  | [g₀, g₁, g₂, g₃, g₄, g₅, g₆, g₇] =>
    some (v6 (.ofNat g₀) (.ofNat g₁) (.ofNat g₂) (.ofNat g₃) (.ofNat g₄) (.ofNat g₅) (.ofNat g₆)
      (.ofNat g₇))
  | _ => none

/-- Take a version 4 address. -/
def scanV4 : Scan IpAddress := do
  match ← fourOctets with
  | [a, b, c, d] => return v4 (.ofNat a) (.ofNat b) (.ofNat c) (.ofNat d)
  | _ => failure

/-- Take a version 6 address. -/
def scanV6 : Scan IpAddress := do
  let ((head, dottedEnd), rest) := groupsFrom 0 8 (← get)
  set rest
  if head.length = 8 then ofGroups? head
  else
    if dottedEnd then failure
    char ':'
    char ':'
    let ((tail, _), rest) := groupsFrom 0 (7 - head.length) (← get)
    set rest
    ofGroups? (head ++ List.replicate (8 - head.length - tail.length) 0 ++ tail)

/-- The address that a text spells. -/
def parse? (text : String) : Option IpAddress :=
  (whole scanV4 text).or (whole scanV6 text)

end IpAddress

/-- An address with a port. The scope is that of a version 6 address, or zero. -/
structure SocketAddress where
  ip : IpAddress
  port : Nat
  scope : Nat := 0
  deriving DecidableEq, Repr

namespace SocketAddress

/-- The text of a socket address. -/
def display (address : SocketAddress) : String :=
  match address.ip with
  | .v4 .. => address.ip.display ++ ":" ++ toString address.port
  | .v6 .. =>
    let scope := if address.scope = 0 then "" else "%" ++ toString address.scope
    "[" ++ address.ip.display ++ scope ++ "]:" ++ toString address.port

/-- Take a decimal number below a bound. -/
def number (bound : Nat) : Scan Nat := do
  let some n := Text.decimal? (← Scan.takeWhile Char.isDigit) | failure
  if n < bound then return n else failure

/-- Take a port with its colon. -/
def scanPort : Scan Nat := do
  char ':'
  number 65536

/-- Take a scope, if there is one. -/
def scanScope : Scan Nat := do
  if (← get).head? = some '%' then
    char '%'
    number UInt32.size
  else return 0

/-- Take a socket address of version 4. -/
def scanV4 : Scan SocketAddress := do
  let ip ← IpAddress.scanV4
  return { ip, port := ← scanPort }

/-- Take a socket address of version 6. -/
def scanV6 : Scan SocketAddress := do
  char '['
  let ip ← IpAddress.scanV6
  let scope ← scanScope
  char ']'
  return { ip, scope, port := ← scanPort }

/-- The socket address that a text spells. -/
def parse? (text : String) : Option SocketAddress :=
  (whole scanV4 text).or (whole scanV6 text)

end SocketAddress

end HttpRelay.Net
