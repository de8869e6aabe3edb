import Agenda.Json.Basic

/-!
# JSON tokens

A text is cut into tokens by a machine that takes one character at a time, so that the machine's
run over two texts in a row is its run over the first continued over the second. White space is
the space, tab, line feed and carriage return; it separates tokens and is dropped.
-/

namespace Agenda.Json

/-- A token of JSON. -/
inductive Token where
  | openBrace
  | closeBrace
  | openBracket
  | closeBracket
  | comma
  | colon
  /-- A number, `true`, `false` or `null`. -/
  | scalar
  /-- A quoted text. -/
  | text (units : List CodeUnit)
deriving DecidableEq

namespace Token

/-- How far a number has been read. -/
inductive NumberPart where
  /-- A minus sign, which a digit has to follow. -/
  | sign
  /-- A leading zero, which no digit may follow. -/
  | zero
  /-- Digits of the integer part. -/
  | integer
  /-- The decimal point, which a digit has to follow. -/
  | point
  /-- Digits of the fraction. -/
  | fraction
  /-- The mark of the exponent, which a sign or a digit has to follow. -/
  | exponentMark
  /-- The sign of the exponent, which a digit has to follow. -/
  | exponentSign
  /-- Digits of the exponent. -/
  | exponent
deriving DecidableEq

namespace NumberPart

/-- The number read so far is a whole number token. -/
def isComplete : NumberPart → Bool
  | zero | integer | fraction | exponent => true
  | sign | point | exponentMark | exponentSign => false

/-- A character that starts a number. -/
def first? (c : Char) : Option NumberPart :=
  if c = '-' then some sign
  else if c = '0' then some zero
  else if c.isDigit then some integer
  else none

/-- A character that continues the number. -/
def next? (part : NumberPart) (c : Char) : Option NumberPart :=
  match part with
  | sign => if c = '0' then some zero else if c.isDigit then some integer else none
  | zero => afterInteger
  | integer => if c.isDigit then some integer else afterInteger
  | point => if c.isDigit then some fraction else none
  | fraction => if c.isDigit then some fraction else mark
  | exponentMark =>
    if c = '+' ∨ c = '-' then some exponentSign else if c.isDigit then some exponent else none
  | exponentSign => if c.isDigit then some exponent else none
  | exponent => if c.isDigit then some exponent else none
where
  /-- An exponent may follow. -/
  mark : Option NumberPart := if c = 'e' ∨ c = 'E' then some exponentMark else none
  /-- A fraction or an exponent may follow. -/
  afterInteger : Option NumberPart := if c = '.' then some point else mark

end NumberPart

/-- Where in a token the machine stands. The units of a text are kept in reverse. -/
inductive Place where
  /-- Between two tokens. -/
  | between
  /-- In a number. -/
  | number (part : NumberPart)
  /-- In one of the words `true`, `false` and `null`, of which the given letters are missing. -/
  | word (missing : List Char)
  /-- In a quoted text. -/
  | quoted (units : List CodeUnit)
  /-- Behind a backslash in a quoted text. -/
  | escape (units : List CodeUnit)
  /-- In the hexadecimal digits of an escape, of which `missing` are still to come. -/
  | hex (units : List CodeUnit) (value missing : Nat)

/-- The machine: where it stands, and the tokens so far in reverse. -/
structure Scan where
  /-- Where the machine stands. -/
  place : Place
  /-- The tokens so far in reverse. -/
  tokens : List Token

/-- White space of JSON. -/
def isSpace (c : Char) : Bool :=
  c == ' ' || c == '\t' || c == '\n' || c == '\r'

/-- The token that a character forms by itself. -/
def ofChar? : Char → Option Token
  | '{' => some openBrace
  | '}' => some closeBrace
  | '[' => some openBracket
  | ']' => some closeBracket
  | ',' => some comma
  | ':' => some colon
  | _ => none

/-- The letters that have to follow the first letter of `true`, `false` or `null`. -/
def wordRest? : Char → Option (List Char)
  | 't' => some ['r', 'u', 'e']
  | 'f' => some ['a', 'l', 's', 'e']
  | 'n' => some ['u', 'l', 'l']
  | _ => none

/-- The character that a short escape names. -/
def shortEscape? : Char → Option Char
  | '"' => some '"'
  | '\\' => some '\\'
  | '/' => some '/'
  | 'b' => some '\x08'
  | 'f' => some '\x0c'
  | 'n' => some '\n'
  | 'r' => some '\r'
  | 't' => some '\t'
  | _ => none

/-- The value of a hexadecimal digit in either case. -/
def hexValue? (c : Char) : Option Nat :=
  if c.isDigit then some (c.toNat - '0'.toNat)
  else if 'a' ≤ c ∧ c ≤ 'f' then some (c.toNat - 'a'.toNat + 10)
  else if 'A' ≤ c ∧ c ≤ 'F' then some (c.toNat - 'A'.toNat + 10)
  else none

namespace Scan

/-- Begin a token, or drop white space. -/
def start (tokens : List Token) (c : Char) : Option Scan :=
  if isSpace c then some ⟨.between, tokens⟩
  else if c = '"' then some ⟨.quoted [], tokens⟩
  else
    match ofChar? c, wordRest? c, NumberPart.first? c with
    | some token, _, _ => some ⟨.between, token :: tokens⟩
    | none, some missing, _ => some ⟨.word missing, tokens⟩
    | none, none, some part => some ⟨.number part, tokens⟩
    | none, none, none => none

/-- Take one character. -/
def step (scan : Scan) (c : Char) : Option Scan :=
  let tokens := scan.tokens
  match scan.place with
  | .between => start tokens c
  | .number part =>
    match part.next? c with
    | some part => some ⟨.number part, tokens⟩
    | none => if part.isComplete then start (.scalar :: tokens) c else none
  | .word [] => none
  | .word [letter] => if c = letter then some ⟨.between, .scalar :: tokens⟩ else none
  | .word (letter :: missing) => if c = letter then some ⟨.word missing, tokens⟩ else none
  | .quoted units =>
    if c = '"' then some ⟨.between, .text units.reverse :: tokens⟩
    else if c = '\\' then some ⟨.escape units, tokens⟩
    else if c.toNat < 0x20 then none
    else some ⟨.quoted (.char c :: units), tokens⟩
  | .escape units =>
    if c = 'u' then some ⟨.hex units 0 4, tokens⟩
    else (shortEscape? c).map fun named => ⟨.quoted (.char named :: units), tokens⟩
  | .hex units value missing =>
    (hexValue? c).map fun digit =>
      let value := value * 16 + digit
      if missing = 1 then ⟨.quoted (.unit value :: units), tokens⟩
      else ⟨.hex units value (missing - 1), tokens⟩

/-- The tokens, if the text does not end within one. -/
def finish (scan : Scan) : Option (List Token) :=
  match scan.place with
  | .between => some scan.tokens.reverse
  | .number part => if part.isComplete then some (.scalar :: scan.tokens).reverse else none
  | _ => none

end Scan

/-- The tokens of a text, if it consists of tokens and white space. -/
def ofChars? (text : List Char) : Option (List Token) :=
  (text.foldlM Scan.step ⟨.between, []⟩).bind Scan.finish

end Token

end Agenda.Json
