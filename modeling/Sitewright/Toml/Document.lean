import Sitewright.Toml.Table
import Sitewright.Toml.Token

/-!
Contract: configuration files as tables.

`ofText?` reads a file line by line: blank lines, comments, headers of tables and
of arrays of tables, and keys with values. Values may span lines only inside
brackets and between three quotes.
-/

namespace Sitewright.Toml

/-- How many arrays and inline tables may be open at once, and how many keys a
dotted key may have. -/
def nestingLimit : Nat := 79

/-- The keys before the last one, and the last one. -/
def splitKey (keys : List String) : List String × String :=
  (keys.dropLast, keys.getLast?.getD "")

/-- A dotted key within the limit, cut before its last part. -/
def key? (fuel : Nat) (input : List Char) : Option ((List String × String) × List Char) := do
  let (keys, rest) ← dottedKey? fuel input
  if keys.length ≤ nestingLimit then some (splitKey keys, rest) else none

/-- What follows `word`. -/
def word? (word input : List Char) : Option (List Char) :=
  if word.isPrefixOf input then some (input.drop word.length) else none

/-- A value that is neither an array nor an inline table. -/
def scalar? (input : List Char) : Option (Node × List Char) :=
  let read {α : Type} (node : α → Node) (found : Option (α × List Char)) :
      Option (Node × List Char) :=
    found.map fun found => (node found.1, found.2)
  (read .string (string? input))
    |>.or ((word? ['t', 'r', 'u', 'e'] input).map fun rest => (.bool true, rest))
    |>.or ((word? ['f', 'a', 'l', 's', 'e'] input).map fun rest => (.bool false, rest))
    |>.or (read .moment (moment? input))
    |>.or (read .float (float? input))
    |>.or (read .whole (whole? input))

mutual

/-- One value. Every call spends one unit of `fuel`; `depth` more arrays and
inline tables may be opened. -/
def value? : (fuel depth : Nat) → List Char → Option (Node × List Char)
  | 0, _, _ => none
  | fuel + 1, depth, input =>
      match input with
      | '[' :: rest =>
          if depth = 0 then none
          else (items? fuel (depth - 1) rest).map fun found => (.array found.1, found.2)
      | '\x7b' :: rest =>
          if depth = 0 then none
          else
            match skipSpace rest with
            | '\x7d' :: rest => some (.inlineTable [], rest)
            | rest =>
                (entries? fuel (depth - 1) (.explicit []) rest).map fun found =>
                  (.inlineTable found.1.entries, found.2)
      | _ => scalar? input

/-- Items up to the closing bracket; a comma may follow the last one. -/
def items? : (fuel depth : Nat) → List Char → Option (List Node × List Char)
  | 0, _, _ => none
  | fuel + 1, depth, input =>
      match skipLines input.length input with
      | ']' :: rest => some ([], rest)
      | start => do
          let (first, rest) ← value? fuel depth start
          match skipLines rest.length rest with
          | ']' :: rest => return ([first], rest)
          | ',' :: rest =>
              let (others, rest) ← items? fuel depth rest
              return (first :: others, rest)
          | _ => none

/-- Entries of an inline table up to the closing brace, at least one. -/
def entries? : (fuel depth : Nat) → Table → List Char → Option (Table × List Char)
  | 0, _, _, _ => none
  | fuel + 1, depth, table, input => do
      let ((path, key), rest) ← key? input.length input
      let rest ← after? '=' rest
      let (value, rest) ← value? fuel depth (skipSpace rest)
      let table ← table.assign path key value
      match skipSpace rest with
      | '\x7d' :: rest => return (table, rest)
      | ',' :: rest => entries? fuel depth table rest
      | _ => none

end

/-- A file while it is read: its tables, and the header of the open one. -/
structure Reading where
  root : Table
  header : List String

/-- What follows a header of an array of tables, after its opening brackets. -/
def arrayHeader? (reading : Reading) (input : List Char) : Option (Reading × List Char) := do
  let ((path, key), rest) ← key? input.length input
  let rest ← after? ']' rest
  let rest ← after? ']' rest
  let rest ← restOfLine? rest
  let root ← reading.root.appendTable path key
  return ({ root, header := path ++ [key] }, rest)

/-- What follows a header of a table, after its opening bracket. -/
def header? (reading : Reading) (input : List Char) : Option (Reading × List Char) := do
  let ((path, key), rest) ← key? input.length input
  let rest ← after? ']' rest
  let rest ← restOfLine? rest
  let root ← reading.root.openTable path key
  return ({ root, header := path ++ [key] }, rest)

/-- What follows a line with a key and a value. -/
def assignment? (reading : Reading) (input : List Char) : Option (Reading × List Char) := do
  let ((path, key), rest) ← key? input.length input
  let rest ← after? '=' rest
  let (value, rest) ← value? (2 * rest.length + 2) nestingLimit (skipSpace rest)
  let rest ← restOfLine? rest
  let root ← reading.root.assignBelow reading.header path key value
  return ({ reading with root }, rest)

/-- The first line read, and the lines after it. -/
def line? (reading : Reading) (input : List Char) : Option (Reading × List Char) :=
  match skipSpace input with
  | '[' :: '[' :: rest => arrayHeader? reading rest
  | '[' :: rest => header? reading rest
  | start =>
      match restOfLine? start with
      | some rest => some (reading, rest)
      | none => assignment? reading start

/-- All lines; each spends one unit of `fuel`. -/
def lines? : (fuel : Nat) → Reading → List Char → Option Reading
  | _, reading, [] => some reading
  | 0, _, _ => none
  | fuel + 1, reading, input => do
      let (reading, rest) ← line? reading input
      lines? fuel reading rest

/-- The mark that some editors put at the beginning of a file. -/
def dropByteOrderMark : List Char → List Char
  | '\ufeff' :: rest => rest
  | input => input

def ofText? (text : String) : Option Table :=
  let input := dropByteOrderMark text.toList
  (lines? (input.length + 1) { root := .explicit [], header := [] } input).map Reading.root

end Sitewright.Toml
