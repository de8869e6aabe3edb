import Agenda.Decimal.Shortest

/-!
# Trees of settings

Settings come from several sources as values under keys. They are gathered in one tree, in which a
later source replaces single values of an earlier one: a table is merged key by key, anything else
takes the place of what was there.
-/

namespace Agenda.Settings

/-- A value that is set somewhere. -/
inductive Value where
  /-- Nothing; it fills the places of an array that no source has set. -/
  | absent
  | bool (b : Bool)
  | int (n : Int)
  | number (x : Binary64)
  | text (text : String)
  | array (elements : List Value)
  | table (entries : List (String × Value))

namespace Value

/-- The entries of a table; anything else has none. -/
def entries : Value → List (String × Value)
  | table entries => entries
  | _ => []

/-- The elements of an array; anything else has none. -/
def elements : Value → List Value
  | array elements => elements
  | _ => []

/-- The value under a key of a table. -/
def find? (tree : Value) (key : String) : Option Value :=
  tree.entries.lookup key

/-- Change the value under a key; what is no table becomes one. -/
def changeKey (key : String) (change : Value → Value) (tree : Value) : Value :=
  let entries := tree.entries
  if (entries.lookup key).isSome then
    table (entries.map fun entry => if entry.1 = key then (key, change entry.2) else entry)
  else table (entries ++ [(key, change absent)])

/-- Change the element at an index, which counts from the end if it is negative; what is no array
becomes one, and an array grows as far as the index needs. -/
def changeIndex (index : Int) (change : Value → Value) (tree : Value) : Value :=
  let elements := tree.elements
  if 0 ≤ index then
    let missing := index.toNat + 1 - elements.length
    array ((elements ++ List.replicate missing absent).modify index.toNat change)
  else if index.natAbs ≤ elements.length then
    array (elements.modify (elements.length - index.natAbs) change)
  else
    let missing := index.natAbs - elements.length
    array ((List.replicate missing absent ++ elements).modify 0 change)

/-- A step from a value to one of its parts. -/
inductive Step where
  | key (key : String)
  | index (index : Int)
deriving DecidableEq

/-- Change the value at the end of a path. -/
def changeAt (change : Value → Value) : List Step → Value → Value
  | [], tree => change tree
  | .key key :: path, tree => tree.changeKey key (changeAt change path)
  | .index index :: path, tree => tree.changeIndex index (changeAt change path)

mutual

/-- Lay a value over another one: the entries of a table are laid over those of the other, which
counts as a table without entries if it is none, and anything else replaces it. -/
def overlay : Value → Value → Value
  | table entries, below => overlayEntries entries (table below.entries)
  | value, _ => value

/-- Lay entries over a table, one after the other. -/
def overlayEntries : List (String × Value) → Value → Value
  | [], below => below
  | (key, value) :: rest, below => overlayEntries rest (below.changeKey key (overlay value))

end

end Value

/-! ## Paths -/

/-- A character of a key in a path. -/
def isPathChar (c : Char) : Bool :=
  c.isAlphanum || c == '_' || c == '-'

/-- A text without the spaces and tabs at either end. -/
def trimSpaces (text : List Char) : List Char :=
  let isSpace (c : Char) : Bool := c == ' ' || c == '\t'
  ((text.dropWhile isSpace).reverse.dropWhile isSpace).reverse

/-- An index: a whole number of 64 bits, without a plus sign, which may stand between spaces. -/
def index? (text : List Char) : Option Int :=
  let text := trimSpaces text
  if text.head? = some '+' then none
  else (Numeral.int? text).filter (Numeral.IsInt64 ·)

/-- The steps of a path behind its first key. A point leads to a key, brackets to an index. -/
def stepsWithin : Nat → List Char → Option (List Value.Step)
  | _, [] => some []
  | 0, _ => none
  | fuel + 1, '.' :: text =>
    let (key, rest) := text.span isPathChar
    if key.isEmpty then none
    else (stepsWithin fuel rest).map (.key (String.ofList key) :: ·)
  | fuel + 1, '[' :: text =>
    let (index, rest) := text.span (· ≠ ']')
    match index? index, rest with
    | some n, ']' :: rest => (stepsWithin fuel rest).map (.index n :: ·)
    | _, _ => none
  | _, _ => none

/-- The path that a name stands for: keys with points between them and indices in brackets. A name
that is none of this is a single key. -/
def path (name : String) : List Value.Step :=
  let chars := name.toList
  let (key, rest) := chars.span isPathChar
  match key.isEmpty, stepsWithin chars.length rest with
  | false, some steps => .key (String.ofList key) :: steps
  | _, _ => [.key name]

/-- Set a value under a name. -/
def Value.set (tree : Value) (name : String) (value : Value) : Value :=
  tree.changeAt value.overlay (path name)

/-- Set the values of a source under their names, one after the other. -/
def Value.setAll (tree : Value) (source : List (String × Value)) : Value :=
  source.foldl (fun tree (name, value) => tree.set name value) tree

/-! ## Reading a value -/

/-- A value as the text of a setting. -/
def Value.toText? : Value → Option String
  | text t => some t
  | bool b => some (if b then "true" else "false")
  | int n => some (String.ofList (Numeral.ofInt n))
  | number x => some (String.ofList x.chars)
  | absent | array _ | table _ => none

/-- A text as a whole number: some words stand for 1 and some for 0. -/
def wholeOfText? (text : String) : Option Nat :=
  match text.toLower with
  | "true" | "on" | "yes" => some 1
  | "false" | "off" | "no" => some 0
  | _ => Numeral.nat? text.toList

/-- A value as a whole number. -/
def Value.toWhole? : Value → Option Nat
  | int n => if 0 ≤ n then some n.toNat else none
  | bool b => some b.toNat
  | number x => x.toWhole
  | text t => wholeOfText? t
  | absent | array _ | table _ => none

/-- A value as a number of 16 bits. -/
def Value.toUInt16? (value : Value) : Option UInt16 :=
  (value.toWhole?.filter (· < UInt16.size)).map UInt16.ofNat

/-- The value of a section that has a single setting: the one under its key, or the first element
of an array. -/
def Value.single? (key : String) : Value → Option Value
  | table entries => entries.lookup key
  | array elements => elements.head?
  | _ => none

end Agenda.Settings
