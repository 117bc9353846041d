import HttpRelay.Toml.Value

/-!
# Building Tables

A document adds to its tables piece by piece. How a table came to be decides what may still be
added to it: a table is headed once, and dotted keys extend only what dotted keys made.
-/

namespace HttpRelay.Toml

/-- How a table came to be. -/
inductive Origin where
  /-- It has a header of its own. -/
  | header
  /-- It stands in the header of another table. -/
  | implied
  /-- It stands in a dotted key. -/
  | dotted
  deriving DecidableEq, Repr

/-- What stands under a key. -/
inductive Node where
  | value (v : Value)
  | table (origin : Origin) (entries : List (String × Node))
  /-- An array of tables, the last one first. -/
  | tables (reversed : List (List (String × Node)))

mutual

/-- The value of a node. -/
def Node.toValue : Node → Value
  | .value v => v
  | .table _ entries => .table (valuesOf entries)
  | .tables reversed => .array (tablesOf reversed).reverse

/-- The values of the entries of a table. -/
def valuesOf : List (String × Node) → List (String × Value)
  | [] => []
  | (key, node) :: rest => (key, node.toValue) :: valuesOf rest

/-- The values of some tables. -/
def tablesOf : List (List (String × Node)) → List Value
  | [] => []
  | entries :: rest => .table (valuesOf entries) :: tablesOf rest

end

/-- A table that is being built. -/
structure Table where
  origin : Origin := .header
  entries : List (String × Node) := []

/-- A value with the keys that lead to it. -/
structure Entry where
  path : List String
  key : String
  value : Value

namespace Table

/-- The value of a table. -/
def toValue (t : Table) : Value := .table (valuesOf t.entries)

/-- Put a node under a key, in the place of the one that is there. -/
def put (t : Table) (key : String) (node : Node) : Table :=
  { t with entries := (key, node) :: t.entries.filter (·.1 ≠ key) }

/-- Edit the table at the end of a path, and make those on the way that are missing. Dotted
keys do not lead into a table with a header; a path leads into the last of an array of tables. -/
def editAt (dotted : Bool) (edit : Table → Option Table) : List String → Table → Option Table
  | [], t => edit t
  | key :: path, t =>
    let within (origin : Origin) (entries : List (String × Node)) : Option Table :=
      editAt dotted edit path { origin, entries }
    match t.entries.lookup key with
    | none =>
      let origin : Origin := if dotted then .dotted else .implied
      (within origin []).map fun inner => t.put key (.table origin inner.entries)
    | some (.table origin entries) =>
      if dotted && origin = .header then none
      else (within origin entries).map fun inner => t.put key (.table origin inner.entries)
    | some (.tables (last :: earlier)) =>
      (within .header last).map fun inner => t.put key (.tables (inner.entries :: earlier))
    | some _ => none

/-- Add a value under a key that is not there yet. -/
def insert (t : Table) (entry : Entry) : Option Table :=
  t.editAt true
    (fun inner =>
      if (inner.origin = .dotted) = (entry.path = []) then none
      else
        match inner.entries.lookup entry.key with
        | none => some (inner.put entry.key (.value entry.value))
        | some _ => none)
    entry.path

/-- Add values one after another. -/
def insertAll (t : Table) (entries : List Entry) : Option Table := entries.foldlM insert t

end Table

/-- The header of a section. -/
structure Header where
  path : List String
  key : String
  /-- The section is the next one of an array of tables. -/
  isItem : Bool

/-- A header with the values below it. -/
structure Section where
  header : Header
  entries : List Entry

/-- Add a section to a document. -/
def Table.addSection (document : Table) (part : Section) : Option Table :=
  let { header, entries } := part
  document.editAt false
    (fun outer =>
      let filled (before : List (String × Node)) : Option (List (String × Node)) :=
        (Table.insertAll { entries := before } entries).map Table.entries
      let placed (node : Node) : Table := outer.put header.key node
      match header.isItem, outer.entries.lookup header.key with
      | false, none => (filled []).map fun es => placed (.table .header es)
      | false, some (.table .implied before) =>
        (filled before).map fun es => placed (.table .header es)
      | true, none => (filled []).map fun es => placed (.tables [es])
      | true, some (.tables reversed) => (filled []).map fun es => placed (.tables (es :: reversed))
      | _, _ => none)
    header.path

end HttpRelay.Toml
