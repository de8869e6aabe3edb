import Agenda.Decimal.Binary64

/-!
# TOML values

The values of a TOML document. A table remembers how it came about, since that decides what may
still be added to it: a header or dotted keys define a table once, until then headers of tables
below it may name it, and a table written between braces is closed.

- `descend`: follow a path of keys, making the tables that are missing.
- `assign`: put a value under a dotted key.
- `openTable`, `openElement`: what the two kinds of headers do.
-/

namespace Agenda.Toml

/-- How a table came about. -/
inductive Origin where
  /-- Its own header defines it. -/
  | header
  /-- Only headers of tables below it name it. -/
  | above
  /-- Dotted keys define it. -/
  | dotted
  /-- It is written between braces. -/
  | inline
deriving DecidableEq

/-- A TOML value. -/
inductive Value where
  | text (text : String)
  | int (n : Int)
  | number (x : Binary64)
  | bool (b : Bool)
  /-- A date, a time of day or both, by its text. -/
  | moment (text : String)
  | array (elements : List Value)
  /-- An array whose tables are opened by headers one after the other; the last one is open. -/
  | tables (earlier : List Value) (last : List (String × Value))
  | table (origin : Origin) (entries : List (String × Value))

/-- The entries of a table. -/
abbrev Entries := List (String × Value)

namespace Entries

/-- The value under a key. -/
def find? (entries : Entries) (key : String) : Option Value :=
  List.lookup key entries

/-- The entries with a value under a key, which replaces a former one. -/
def put (entries : Entries) (key : String) (value : Value) : Entries :=
  if (entries.find? key).isSome then
    entries.map fun entry => if entry.1 = key then (key, value) else entry
  else entries ++ [(key, value)]

/-- The entries with a value under a new key. -/
def add? (entries : Entries) (key : String) (value : Value) : Option Entries :=
  if (entries.find? key).isSome then none else some (entries ++ [(key, value)])

/-- Follow a path of keys and change the table it ends at. Missing tables are made on the way, and
an array of tables is entered at its last table. A value that is no table, a table between braces
and, for a dotted key, a table with a header of its own cannot be entered. A dotted key defines the
tables that it enters. -/
def descend (isDotted : Bool) (change : Origin → Entries → Option Entries) :
    List String → Origin → Entries → Option Entries
  | [], origin, entries => change origin entries
  | key :: path, _, entries =>
    match entries.find? key with
    | none => do
      let origin := if isDotted then Origin.dotted else .above
      return entries.put key (.table origin (← descend isDotted change path origin []))
    | some (.table origin below) =>
      if origin = .inline ∨ isDotted ∧ origin = .header then none
      else do
        let origin := if isDotted then .dotted else origin
        return entries.put key (.table origin (← descend isDotted change path origin below))
    | some (.tables earlier last) => do
      return entries.put key (.tables earlier (← descend isDotted change path .header last))
    | some _ => none

/-- Put a value under a dotted key, given by its path and its last part. The key must be new, and
only tables defined by dotted keys take values under dotted keys. -/
def assign (path : List String) (key : String) (value : Value) :
    Origin → Entries → Option Entries :=
  descend true (fun origin entries =>
    if origin = .dotted ↔ path = [] then none else entries.add? key value) path

/-- The header of a table: the table is new, or so far only named by headers of tables below. -/
def openTable (path : List String) (key : String) : Entries → Option Entries :=
  descend false (fun _ entries =>
    match entries.find? key with
    | none => some (entries.put key (.table .header []))
    | some (.table .above below) => some (entries.put key (.table .header below))
    | some _ => none) path .header

/-- The header of a table in an array of tables: it starts a new table at the array's end. -/
def openElement (path : List String) (key : String) : Entries → Option Entries :=
  descend false (fun _ entries =>
    match entries.find? key with
    | none => some (entries.put key (.tables [] []))
    | some (.tables earlier last) =>
      some (entries.put key (.tables (earlier ++ [.table .header last]) []))
    | some _ => none) path .header

/-- Put a value under a dotted key of the table that the last header has opened. -/
def assignBelow (header : List String) (path : List String) (key : String) (value : Value) :
    Entries → Option Entries :=
  descend false (assign path key value) header .header

end Entries

end Agenda.Toml
