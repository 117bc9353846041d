/-!
# Values of Configuration Files

The values of TOML 1.0. Numbers with a fraction and points in time are kept as they were written.
-/

namespace HttpRelay.Toml

/-- A value. -/
inductive Value where
  | text (s : String)
  | integer (n : Int)
  | float (written : String)
  | boolean (b : Bool)
  | dateTime (written : String)
  | array (items : List Value)
  | table (entries : List (String × Value))

namespace Value

/-- The text that a value is. -/
def text? : Value → Option String
  | text s => some s
  | _ => none

/-- The boolean that a value is. -/
def boolean? : Value → Option Bool
  | boolean b => some b
  | _ => none

/-- The integer that a value is. -/
def integer? : Value → Option Int
  | integer n => some n
  | _ => none

/-- The natural number below `bound` that a value is. -/
def natural? (bound : Nat) (v : Value) : Option Nat := do
  let n ← v.integer?
  if 0 ≤ n && n < bound then return n.toNat else failure

/-- What a value lists, each item decoded. -/
def list? {α : Type} (decode : Value → Option α) : Value → Option (List α)
  | array items => items.mapM decode
  | _ => none

end Value

/-- The fields of a record, by place and name. -/
abbrev Record := Nat → String → Option Value

/-- The record that a value is. An array gives its fields by place; a point in time has none of
the fields that a record is asked for. -/
def Value.record? : Value → Option Record
  | table entries => some fun _ name => entries.lookup name
  | array items => some fun place _ => items[place]?
  | dateTime _ => some fun _ _ => none
  | _ => none

namespace Record

variable {α : Type}

/-- A field that must be there. -/
def require (r : Record) (place : Nat) (name : String) (decode : Value → Option α) : Option α :=
  (r place name).bind decode

/-- A field with a default. -/
def getD (r : Record) (place : Nat) (name : String) (decode : Value → Option α) (default : α) :
    Option α :=
  match r place name with
  | some v => decode v
  | none => some default

/-- A field that may be missing. -/
def get? (r : Record) (place : Nat) (name : String) (decode : Value → Option α) :
    Option (Option α) :=
  r.getD place name (fun v => (decode v).map some) none

end Record

end HttpRelay.Toml
