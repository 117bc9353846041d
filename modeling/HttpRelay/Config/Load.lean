import HttpRelay.Config.Decode
import HttpRelay.Config.Validation
import HttpRelay.Text.Utf8
import HttpRelay.Toml.Document
import HttpRelay.Transport.IoFailure

/-!
# Loading Configurations

A configuration file is read, decoded and validated before it is used.
-/

namespace HttpRelay.Config

/-- Why a configuration could not be loaded. -/
inductive LoadError where
  | io (failure : IoFailure)
  /-- The text does not spell a configuration. -/
  | unreadable
  | invalid (faults : List Fault)
  deriving DecidableEq, Repr

/-- The text shown for an invalid configuration. -/
def LoadError.message? : LoadError → Option String
  | invalid faults =>
    some ("Validation failed: " ++ ", ".intercalate (faults.map Fault.message))
  | _ => none

/-- The configuration that a text spells, whether it is valid or not. -/
def decode (text : String) : Except LoadError Config :=
  match (Toml.Document.parse? text).bind ofToml? with
  | some c => .ok c
  | none => .error .unreadable

/-- The valid configuration that a text spells. -/
def parse (text : String) : Except LoadError Config := do
  let c ← decode text
  if c.isValid then return c else throw (.invalid c.faults)

/-- The valid configuration that a file holds. -/
def load (file : Except IoFailure Bytes) : Except LoadError Config := do
  let bytes ← file.mapError .io
  match Text.Utf8.decode? bytes with
  | some text => parse text
  | none => throw (.io .invalidData)

end HttpRelay.Config
