/-!
# Text in TOML

Blanks, line ends, comments, quoted strings and keys. Each reader takes what it reads off the
front of a text and gives the rest, or refuses the text.

A line ends with a line feed, with or without a carriage return before it. Control characters
other than the tab stand neither in strings nor in comments.
-/

namespace Agenda.Toml

/-- A reader takes something off the front of a text. -/
abbrev Reader (α : Type) := List Char → Option (α × List Char)

/-- A space or a tab. -/
def isSpace (c : Char) : Bool :=
  c == ' ' || c == '\t'

/-- A text without the spaces and tabs in front. -/
def skipSpaces (text : List Char) : List Char :=
  text.dropWhile isSpace

/-- A character that may stand in a comment or string of one line. -/
def isPlain (c : Char) : Bool :=
  c == '\t' || ('\x20' ≤ c && c != '\x7f')

/-- The text behind the line end in front, if one is there. -/
def lineEnd? : List Char → Option (List Char)
  | '\n' :: rest => some rest
  | '\r' :: '\n' :: rest => some rest
  | _ => none

/-- The text behind the comment in front, if one is there; the line end stays. -/
def skipComment : List Char → List Char
  | '#' :: rest => rest.dropWhile isPlain
  | text => text

/-- The text behind the rest of a line, which holds nothing but spaces and a comment. -/
def finishLine? (text : List Char) : Option (List Char) :=
  match skipComment (skipSpaces text) with
  | [] => some []
  | rest => lineEnd? rest

/-- The text without the spaces, comments and line ends in front; the flag says whether a comment
has begun. -/
def skipLinesFrom : Bool → List Char → List Char
  | _, [] => []
  | _, '\n' :: rest => skipLinesFrom false rest
  | _, '\r' :: '\n' :: rest => skipLinesFrom false rest
  | true, c :: rest => if isPlain c then skipLinesFrom true rest else c :: rest
  | false, c :: rest =>
    if isSpace c then skipLinesFrom false rest
    else if c = '#' then skipLinesFrom true rest
    else c :: rest

/-- The text without the spaces, comments and line ends in front. -/
def skipLines (text : List Char) : List Char :=
  skipLinesFrom false text

/-! ## Strings -/

/-- The value of a hexadecimal digit in either case. -/
def hexValue? (c : Char) : Option Nat :=
  if c.isDigit then some (c.toNat - '0'.toNat)
  else if 'a' ≤ c ∧ c ≤ 'f' then some (c.toNat - 'a'.toNat + 10)
  else if 'A' ≤ c ∧ c ≤ 'F' then some (c.toNat - 'A'.toNat + 10)
  else none

/-- The character with the given number, which must not be half of a surrogate pair. -/
def char? (n : Nat) : Option Char :=
  if n.isValidChar then some (Char.ofNat n) else none

/-- The character that a number of hexadecimal digits names. -/
def hexChar (count : Nat) : Reader Char := fun text => do
  let digits := text.take count
  if digits.length < count then none
  else
    let values ← digits.mapM hexValue?
    return (← char? (values.foldl (16 * · + ·) 0), text.drop count)

/-- The character that an escape names, read behind its backslash. -/
def escaped : Reader Char
  | 'b' :: rest => some ('\x08', rest)
  | 'e' :: rest => some ('\x1b', rest)
  | 't' :: rest => some ('\t', rest)
  | 'n' :: rest => some ('\n', rest)
  | 'f' :: rest => some ('\x0c', rest)
  | 'r' :: rest => some ('\r', rest)
  | '"' :: rest => some ('"', rest)
  | '\\' :: rest => some ('\\', rest)
  | 'x' :: rest => hexChar 2 rest
  | 'u' :: rest => hexChar 4 rest
  | 'U' :: rest => hexChar 8 rest
  | _ => none

/-- The rest of a string between single quotes, which has no escapes. -/
def literalString : Reader String := fun text =>
  let content := text.takeWhile fun c => isPlain c && c != '\''
  match text.drop content.length with
  | '\'' :: rest => some (String.ofList content, rest)
  | _ => none

/-- The rest of a string between double quotes, behind the characters found so far, which are given
in reverse. -/
def basicStringFrom : Nat → List Char → Reader String
  | 0, _, _ => none
  | fuel + 1, soFar, text =>
    match text with
    | '"' :: rest => some (String.ofList soFar.reverse, rest)
    | '\\' :: rest =>
      (escaped rest).bind fun (c, rest) => basicStringFrom fuel (c :: soFar) rest
    | c :: rest => if isPlain c then basicStringFrom fuel (c :: soFar) rest else none
    | [] => none

/-- The rest of a string between double quotes. -/
def basicString : Reader String := fun text =>
  basicStringFrom (text.length + 1) [] text

/-- How many of the quotes in front of a text belong to a string of several lines: three end it, and
up to two more in front of these are part of it. None do if it does not end here. -/
def closingQuotes (quote : Char) (text : List Char) : Nat :=
  let count := (text.takeWhile (· == quote)).length
  if count < 3 then 0 else min count 5

/-- The text without the spaces and line ends in front. -/
def skipBlank : List Char → List Char
  | [] => []
  | '\n' :: rest => skipBlank rest
  | '\r' :: '\n' :: rest => skipBlank rest
  | c :: rest => if isSpace c then skipBlank rest else c :: rest

/-- The text behind the line end and all spaces and line ends after it, if the spaces in front of
the text lead to a line end. -/
def foldedLine? (text : List Char) : Option (List Char) :=
  (lineEnd? (skipSpaces text)).map skipBlank

/-- The rest of a string of several lines, behind the characters found so far, which are given in
reverse. Between double quotes there are escapes, and a backslash at the end of a line joins it
with the next word. -/
def longStringFrom (quote : Char) : Nat → List Char → Reader String
  | 0, _, _ => none
  | fuel + 1, soFar, text =>
    let closing := closingQuotes quote text
    if closing ≠ 0 then
      let inside := List.replicate (closing - 3) quote
      some (String.ofList (soFar.reverse ++ inside), text.drop closing)
    else
      match text with
      | [] => none
      | '\r' :: '\n' :: rest => longStringFrom quote fuel ('\n' :: '\r' :: soFar) rest
      | c :: rest =>
        if c = '\\' ∧ quote = '"' then
          match foldedLine? rest with
          | some rest => longStringFrom quote fuel soFar rest
          | none =>
            (escaped rest).bind fun (c, rest) => longStringFrom quote fuel (c :: soFar) rest
        else if isPlain c ∨ c = '\n' then longStringFrom quote fuel (c :: soFar) rest
        else none

/-- The rest of a string of several lines; a line end right at its beginning is not part of it. -/
def longString (quote : Char) : Reader String := fun text =>
  longStringFrom quote (text.length + 1) [] ((lineEnd? text).getD text)

/-- A string of any of the four kinds. -/
def string : Reader String
  | '"' :: '"' :: '"' :: rest => longString '"' rest
  | '"' :: rest => basicString rest
  | '\'' :: '\'' :: '\'' :: rest => longString '\'' rest
  | '\'' :: rest => literalString rest
  | _ => none

/-! ## Keys -/

/-- A character of a key without quotes. -/
def isBareKeyChar (c : Char) : Bool :=
  c.isAlphanum || c == '_' || c == '-'

/-- One part of a key. -/
def keyPart : Reader String
  | '"' :: rest => basicString rest
  | '\'' :: rest => literalString rest
  | text =>
    let bare := text.takeWhile isBareKeyChar
    if bare.isEmpty then none else some (String.ofList bare, text.drop bare.length)

/-- How many parts a dotted key may have, and how deep arrays and tables between braces may be
nested. -/
def maxDepth : Nat := 80

/-- The parts of a dotted key behind the given ones, at most as many as the first argument says: the
path and the last part. -/
def keyFrom : Nat → List String → String → Reader (List String × String)
  | left, path, last, text =>
    match left, skipSpaces text with
    | 0, '.' :: _ => none
    | left + 1, '.' :: rest =>
      (keyPart (skipSpaces rest)).bind fun (part, rest) =>
        keyFrom left (path ++ [last]) part rest
    | _, rest => some ((path, last), rest)

/-- A dotted key: the path and the last part, with the blanks behind it taken off. -/
def key : Reader (List String × String) := fun text =>
  (keyPart text).bind fun (part, rest) => keyFrom (maxDepth - 1) [] part rest

end Agenda.Toml
