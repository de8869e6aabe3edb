import Agenda.Settings.Environment
import Agenda.Text.Alphanumeric
import Agenda.Text.Blank
import Agenda.Text.ByteOrderMark

/-!
# Environment files

A file of lines `NAME=value` that stands behind the environment: a line takes effect only if the
environment does not have the variable yet. Reading ends at the first line that is malformed, and
the lines before it stay in effect.

- A quote or a backslash may carry a value over the end of a line, `#` behind a blank starts a
  comment, and `export` may stand in front of a name.
- A value may be put together from pieces: between single quotes as they stand, between double
  quotes and outside of quotes with escapes and with the values of other variables.
-/

namespace Agenda.Settings.DotEnv

/-! ## Lines -/

/-- Where the cutting of a text into lines stands. -/
inductive Place where
  /-- Outside of quotes, behind a character that is no blank. -/
  | plain
  /-- Outside of quotes, behind a blank. -/
  | blank
  /-- Behind a backslash. -/
  | escape
  /-- Between single quotes. -/
  | single
  /-- Between single quotes, behind a backslash. -/
  | singleEscape
  /-- Between double quotes. -/
  | double
  /-- Between double quotes, behind a backslash. -/
  | doubleEscape
deriving DecidableEq

namespace Place

/-- Where a character leads to. -/
def next (place : Place) (c : Char) : Place :=
  match place with
  | plain =>
    if Text.isBlankChar c ∧ c ≠ '\n' ∧ c ≠ '\r' then blank else opening
  | blank => opening
  | escape => plain
  | single => if c = '\\' then singleEscape else if c = '\'' then plain else single
  | singleEscape => single
  | double => if c = '\\' then doubleEscape else if c = '"' then plain else double
  | doubleEscape => double
where
  /-- A quote or a backslash opens something, any other character does not. -/
  opening : Place :=
    if c = '\\' then escape else if c = '"' then double else if c = '\'' then single else plain

end Place

/-- A text cut behind every line feed. -/
def cutLines (text : List Char) : List (List Char) :=
  text.foldr (fun c lines =>
    match lines with
    | line :: rest => if c = '\n' then [c] :: lines else (c :: line) :: rest
    | [] => [[c]]) []

/-- Follow a line from a place to the place at its end. A comment cuts the line short: then there
is no place, but the characters in front of the comment, behind those given in reverse. -/
def follow (place : Place) (soFar : List Char) : List Char → Place ⊕ List Char
  | [] => .inl place
  | c :: rest =>
    if place = .blank ∧ c = '#' then .inr soFar.reverse
    else follow (place.next c) (c :: soFar) rest

/-- Join lines as long as quotes and backslashes carry them over, `start` being the lines that have
been carried over so far. Lines that are comments are left out, and so is what the end of the text
leaves open. -/
def joinLines (place : Place) (start : List Char) : List (List Char) → List (List Char)
  | [] => []
  | line :: rest =>
    let whole := start ++ line
    if (whole.dropWhile Text.isBlankChar).head? = some '#' then joinLines .plain [] rest
    else
      match follow place [] line with
      | .inr cut => (start ++ cut) :: joinLines .plain [] rest
      | .inl .plain => whole :: joinLines .plain [] rest
      | .inl place => joinLines place whole rest

/-- The lines of a text. -/
def lines (text : List Char) : List (List Char) :=
  joinLines .plain [] (cutLines text)

/-! ## Values -/

/-- Where the reading of a value stands. Outside of single quotes the flag says whether double
quotes are open. -/
inductive ValuePlace where
  /-- Between characters. -/
  | plain (quoted : Bool)
  /-- Behind a backslash. -/
  | escape (quoted : Bool)
  /-- Between single quotes. -/
  | single
  /-- In the name of a variable behind a dollar sign. -/
  | name (quoted : Bool) (name : List Char)
  /-- In the name of a variable between braces. -/
  | braced (quoted : Bool) (name : List Char)
  /-- Behind the value. -/
  | behind
  /-- In a comment behind the value. -/
  | comment
deriving DecidableEq

/-- A value being read: where it stands, and the characters so far in reverse. -/
structure ValueReading where
  /-- Where the reading stands. -/
  place : ValuePlace
  /-- The characters so far in reverse. -/
  soFar : List Char

/-- What a name stands for: what follows behind the name and an equals sign in the entry `name=value`
of a variable. So a name may run over an equals sign into the value. A name without an entry stands
for no characters. -/
def valueOf (environment : Environment) (name : List Char) : List Char :=
  (environment.findSome? fun (own, value) =>
    (name ++ ['=']).isPrefixOf? (own.toList ++ '=' :: value.toList)).getD []

namespace ValueReading

/-- Take one character of a value. -/
def step (environment : Environment) (reading : ValueReading) (c : Char) :
    Option ValueReading :=
  let soFar := reading.soFar
  let appended (name : List Char) : List Char := (valueOf environment name).reverse ++ soFar
  match reading.place with
  | .comment => some reading
  | .behind =>
    if c = ' ' ∨ c = '\t' then some reading
    else if c = '#' then some ⟨.comment, soFar⟩
    else none
  | .escape quoted =>
    if c = '\\' ∨ c = '\'' ∨ c = '"' ∨ c = '$' ∨ c = ' ' then some ⟨.plain quoted, c :: soFar⟩
    else if c = 'n' then some ⟨.plain quoted, '\n' :: soFar⟩
    else none
  | .single => if c = '\'' then some ⟨.plain false, soFar⟩ else some ⟨.single, c :: soFar⟩
  | .name quoted name =>
    if Text.isAlphanumeric c then some ⟨.name quoted (name ++ [c]), soFar⟩
    else if c = '{' ∧ name = [] then some ⟨.braced quoted [], soFar⟩
    else if c = '$' then some ⟨.name quoted [], appended name⟩
    else some ⟨.plain quoted, c :: appended name⟩
  | .braced quoted name =>
    if c = '}' then some ⟨.plain quoted, appended name⟩
    else some ⟨.braced quoted (name ++ [c]), soFar⟩
  | .plain quoted =>
    if c = '$' then some ⟨.name quoted [], soFar⟩
    else if c = '\\' then some ⟨.escape quoted, soFar⟩
    else if c = '"' then some ⟨.plain (! quoted), soFar⟩
    else if quoted then some ⟨.plain true, c :: soFar⟩
    else if c = '\'' then some ⟨.single, soFar⟩
    else if c = ' ' ∨ c = '\t' then some ⟨.behind, soFar⟩
    else some ⟨.plain false, c :: soFar⟩

/-- The value, unless quotes or braces are open. -/
def finish (environment : Environment) (reading : ValueReading) : Option (List Char) :=
  match reading.place with
  | .plain true | .escape true | .name true _ | .braced _ _ | .single => none
  | .name false name => some (reading.soFar.reverse ++ valueOf environment name)
  | .plain false | .escape false | .behind | .comment => some reading.soFar.reverse

end ValueReading

/-- The value that a text stands for. -/
def value? (environment : Environment) (text : List Char) : Option (List Char) :=
  (text.foldlM (ValueReading.step environment) ⟨.plain false, []⟩).bind
    (ValueReading.finish environment)

/-! ## Assignments -/

/-- A text without the blanks in front. -/
def skipBlanks (text : List Char) : List Char :=
  text.dropWhile Text.isBlankChar

/-- A text without the blanks behind it. -/
def dropBlanksBehind (text : List Char) : List Char :=
  (text.reverse.dropWhile Text.isBlankChar).reverse

/-- The name in front of a text, and the text behind it and the blanks after it. -/
def name? : List Char → Option (List Char × List Char)
  | [] => none
  | c :: rest =>
    if c.isAlpha ∨ c = '_' then
      let (more, rest) := rest.span fun c => c.isAlphanum ∨ c = '_' ∨ c = '.'
      some (c :: more, skipBlanks rest)
    else none

/-- The text behind the equals sign in front. -/
def behindEquals? : List Char → Option (List Char)
  | '=' :: rest => some rest
  | _ => none

/-- The name that a line assigns to, and the text behind the equals sign. The word `export` may
stand in front of the name, unless it is the name itself. -/
def target? (line : List Char) : Option (List Char × List Char) := do
  let (name, rest) ← name? line
  match behindEquals? rest with
  | some rest => some (name, rest)
  | none =>
    if name = "export".toList then
      let (name, rest) ← name? rest
      return (name, ← behindEquals? rest)
    else none

/-- Whether a text is empty or a comment. -/
def saysNothing (text : List Char) : Bool :=
  text.isEmpty || text.head? == some '#'

/-- The variable that a line assigns to, and its value. -/
def assignment? (environment : Environment) (line : List Char) : Option (String × String) := do
  let (name, rest) ← target? line
  let rest := skipBlanks rest
  let value ← if saysNothing rest then some [] else value? environment rest
  return (String.ofList name, String.ofList value)

/-- The environment behind which the given lines stand. -/
def readLines (environment : Environment) : List (List Char) → Environment
  | [] => environment
  | line :: rest =>
    let line := skipBlanks (dropBlanksBehind line)
    if saysNothing line then readLines environment rest
    else
      match assignment? environment line with
      | none => environment
      | some (name, value) =>
        if (environment.find? name).isSome then readLines environment rest
        else readLines (environment ++ [(name, value)]) rest

/-- The environment behind which a file stands; a byte order mark in front is passed over. -/
def extend (environment : Environment) (text : String) : Environment :=
  readLines environment (lines (Text.dropMark text.toList))

end Agenda.Settings.DotEnv
