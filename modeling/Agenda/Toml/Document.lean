import Agenda.Text.ByteOrderMark
import Agenda.Toml.Scalar
import Agenda.Toml.Text

/-!
# TOML documents

A document is a sequence of lines: assignments of a value to a key, headers that open a table or
the next table of an array, blank lines and comments. A byte order mark in front is passed over.
-/

namespace Agenda.Toml

/-- A character that ends a value without quotes and brackets. -/
def endsScalar (c : Char) : Bool :=
  isSpace c || c == '\n' || c == '\r' || c == ',' || c == ']' || c == '}' || c == '#'

/-- A value without quotes and brackets. A day and a time of day may have a space between them. -/
def scalar : Reader Value := fun text =>
  let first := text.takeWhile (! endsScalar ·)
  let rest := text.drop first.length
  match (day? first).isSome, rest with
  | true, ' ' :: c :: rest' =>
    if c.isDigit then
      let time := (c :: rest').takeWhile (! endsScalar ·)
      (scalar? (first ++ ' ' :: time)).map fun value => (value, (c :: rest').drop time.length)
    else (scalar? first).map fun value => (value, rest)
  | _, _ => (scalar? first).map fun value => (value, rest)

mutual

/-- A value; at most `depth` arrays and tables may be nested in it. -/
def valueWithin (fuel depth : Nat) (text : List Char) : Option (Value × List Char) :=
  match fuel with
  | 0 => none
  | fuel + 1 =>
    match text, depth with
    | '[' :: _, 0 | '{' :: _, 0 => none
    | '[' :: rest, depth + 1 => elementsWithin fuel depth [] (skipLines rest)
    | '{' :: rest, depth + 1 => membersWithin fuel depth [] (skipLines rest)
    | '"' :: _, _ | '\'' :: _, _ => (string text).map fun (content, rest) => (.text content, rest)
    | _, _ => scalar text

/-- The rest of an array behind the elements so far, which are given in reverse: a further element
or the end. -/
def elementsWithin (fuel depth : Nat) (soFar : List Value) (text : List Char) :
    Option (Value × List Char) :=
  match fuel with
  | 0 => none
  | fuel + 1 =>
    match text with
    | ']' :: rest => some (.array soFar.reverse, rest)
    | _ =>
      (valueWithin fuel depth text).bind fun (value, rest) =>
        match skipLines rest with
        | ',' :: rest => elementsWithin fuel depth (value :: soFar) (skipLines rest)
        | ']' :: rest => some (.array (value :: soFar).reverse, rest)
        | _ => none

/-- The rest of a table between braces behind the members so far: a further member or the end. -/
def membersWithin (fuel depth : Nat) (soFar : Entries) (text : List Char) :
    Option (Value × List Char) :=
  match fuel with
  | 0 => none
  | fuel + 1 =>
    match text with
    | '}' :: rest => some (.table .inline soFar, rest)
    | _ =>
      (key text).bind fun ((path, last), rest) =>
        match skipLines rest with
        | '=' :: rest =>
          (valueWithin fuel depth (skipLines rest)).bind fun (value, rest) =>
            (Entries.assign path last value .inline soFar).bind fun members =>
              match skipLines rest with
              | ',' :: rest => membersWithin fuel depth members (skipLines rest)
              | '}' :: rest => some (.table .inline members, rest)
              | _ => none
        | _ => none

end

/-- A value. -/
def value : Reader Value := fun text =>
  valueWithin (text.length + 1) maxDepth text

/-- What has been read of a document. -/
structure Document where
  /-- The entries of the document. -/
  entries : Entries
  /-- The path of the table that the last header has opened. -/
  header : List String

namespace Document

/-- A header between one pair of brackets, read behind its first bracket. -/
def tableHeader (document : Document) : Reader Document := fun text =>
  (key (skipSpaces text)).bind fun ((path, last), rest) =>
    match rest with
    | ']' :: rest =>
      (document.entries.openTable path last).map fun entries => (⟨entries, path ++ [last]⟩, rest)
    | _ => none

/-- A header between two pairs of brackets, read behind the first two. -/
def elementHeader (document : Document) : Reader Document := fun text =>
  (key (skipSpaces text)).bind fun ((path, last), rest) =>
    match rest with
    | ']' :: ']' :: rest =>
      (document.entries.openElement path last).map fun entries =>
        (⟨entries, path ++ [last]⟩, rest)
    | _ => none

/-- An assignment of a value to a key. -/
def assignment (document : Document) : Reader Document := fun text =>
  (key text).bind fun ((path, last), rest) =>
    match rest with
    | '=' :: rest =>
      (value (skipSpaces rest)).bind fun (value, rest) =>
        (document.entries.assignBelow document.header path last value).map fun entries =>
          ({ document with entries }, rest)
    | _ => none

/-- What a line that is not blank says. -/
def statement (document : Document) : Reader Document
  | '[' :: '[' :: rest => document.elementHeader rest
  | '[' :: rest => document.tableHeader rest
  | text => document.assignment text

/-- Read the lines of a text, at most `fuel` of which are not blank. -/
def readLines : Nat → Document → List Char → Option Document
  | 0, _, _ => none
  | fuel + 1, document, text =>
    match skipLines text with
    | [] => some document
    | text => do
      let (document, rest) ← document.statement text
      readLines fuel document (← finishLine? rest)

end Document

/-- The entries of the document that a text holds. -/
def Entries.ofText? (text : List Char) : Option Entries :=
  (Document.readLines (text.length + 1) ⟨[], []⟩ (Text.dropMark text)).map (·.entries)

end Agenda.Toml
