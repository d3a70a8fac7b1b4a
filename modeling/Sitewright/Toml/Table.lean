import Sitewright.Number.Binary64

/-!
Contract: tables of a configuration file, and what may be written into them.

A table is made by a header, by a dotted key, or implicitly on the way to
another. A header may complete an implicit table once. A dotted key continues
only tables that dotted keys made. Values, including inline tables, are closed.
Every violation is refused, as is a second value under a key.

Owns:
- the tree of tables and values;
- assigning a key, opening a table, and appending to an array of tables.

Does not own: the syntax of files.
-/

namespace Sitewright.Toml

open Number

inductive Node where
  | string (value : String)
  | whole (value : Int)
  | float (value : Binary64)
  | bool (value : Bool)
  /-- A date, a time of day, or both, as written. -/
  | moment (text : String)
  | array (items : List Node)
  | inlineTable (entries : List (String × Node))
  | table (implicit dotted : Bool) (entries : List (String × Node))
  /-- An array of tables; the last one is open. -/
  | tables (items : List (List (String × Node)))

/-- A table while it is written into. -/
structure Table where
  /-- Made on the way to another table, and not by a header. -/
  implicit : Bool
  /-- Made by a dotted key. -/
  dotted : Bool
  entries : List (String × Node)

namespace Table

/-- The table of a file, of a header, or of an inline table. -/
def explicit (entries : List (String × Node)) : Table :=
  ⟨false, false, entries⟩

def toNode (table : Table) : Node :=
  .table table.implicit table.dotted table.entries

def get? (key : String) (table : Table) : Option Node :=
  (table.entries.find? fun entry => entry.1 = key).map Prod.snd

/-- The node under a key of a list of entries replaced. -/
def replaceEntry (key : String) (node : Node) : List (String × Node) → List (String × Node)
  | [] => [(key, node)]
  | (other, old) :: rest =>
      if other = key then (key, node) :: rest else (other, old) :: replaceEntry key node rest

/-- The table with a node under a key: in place, or at the end. -/
def set (key : String) (node : Node) (table : Table) : Table :=
  { table with entries := replaceEntry key node table.entries }

/-- Changes the table at the end of `path`, making the tables on the way. With
`dotted`, the path belongs to a dotted key. -/
def change (dotted : Bool) (action : Table → Option Table) :
    (path : List String) → Table → Option Table
  | [], table => action table
  | key :: path, table =>
      match table.get? key with
      | none => do
          let made ← change dotted action path ⟨true, dotted, []⟩
          return table.set key made.toNode
      | some (.table implicit wasDotted entries) =>
          if dotted && !implicit then none
          else do
            let changed ← change dotted action path ⟨implicit, wasDotted, entries⟩
            return table.set key changed.toNode
      | some (.tables items) =>
          match items.reverse with
          | [] => none
          | open_ :: earlier => do
              let changed ← change dotted action path (.explicit open_)
              return table.set key (.tables (changed.entries :: earlier).reverse)
      | some _ => none

/-- A value under a key, in the table that the dotted `path` before it names. -/
def assign (path : List String) (key : String) (value : Node) : Table → Option Table :=
  change true (fun table =>
    if table.dotted = path.isEmpty then none
    else
      match table.get? key with
      | some _ => none
      | none => some (table.set key value)) path

/-- The table of a header: new, or an implicit one completed. -/
def openTable (path : List String) (key : String) : Table → Option Table :=
  change false (fun table =>
    match table.get? key with
    | none => some (table.set key (.table false false []))
    | some (.table true false entries) => some (table.set key (.table false false entries))
    | some _ => none) path

/-- One more table in an array of tables. -/
def appendTable (path : List String) (key : String) : Table → Option Table :=
  change false (fun table =>
    match table.get? key with
    | none => some (table.set key (.tables [[]]))
    | some (.tables items) => some (table.set key (.tables (items ++ [[]])))
    | some _ => none) path

/-- A value under a key of the table that the last header opened. -/
def assignBelow (header path : List String) (key : String) (value : Node) :
    Table → Option Table :=
  change false (assign path key value) header

end Table

end Sitewright.Toml
