import Agenda.Json.Basic

/-!
# The grammar of JSON

The texts that are JSON values, apart from how they are read. A quoted text has two layers: it is
written as a sequence of units, and the units decode to characters unless half of a surrogate pair
stands alone among them. Such a text is well formed but stands for no characters.

- `Json.Written` and `Json.Decodes`: the two layers. `Json.Denotes` takes them together.
- `Json.IsScalar`: numbers and the words `true`, `false` and `null`.
- `Json.IsValue`: values of any depth, with white space wherever there may be some.
- `Json.Member` and `Json.IsObject`: the members of an object, and the texts that are an object with
  the given members.
-/

namespace Agenda.Json

/-! ## White space -/

/-- Any number of spaces, tabs, line feeds and carriage returns. -/
def IsSpace (text : List Char) : Prop :=
  ∀ c ∈ text, c = ' ' ∨ c = '\t' ∨ c = '\n' ∨ c = '\r'

instance (text : List Char) : Decidable (IsSpace text) :=
  List.decidableBAll _ text

/-- The white space around a piece of JSON. -/
structure Spaces where
  /-- The white space before it. -/
  before : List Char := []
  /-- The white space behind it. -/
  behind : List Char := []
  /-- There is nothing else before it. -/
  isSpace_before : IsSpace before := by decide
  /-- There is nothing else behind it. -/
  isSpace_behind : IsSpace behind := by decide

/-- A text with white space around it. -/
def Spaces.around (spaces : Spaces) (text : List Char) : List Char :=
  spaces.before ++ text ++ spaces.behind

/-! ## Numbers and words -/

/-- One or more digits. -/
def IsDigits (text : List Char) : Prop :=
  text ≠ [] ∧ ∀ c ∈ text, c.isDigit = true

/-- The integer part of a number. It begins with a zero only if it is nothing else. -/
inductive IsInteger : List Char → Prop
  | zero : IsInteger ['0']
  | digits {c : Char} {rest : List Char} (hc : c.isDigit = true) (hzero : c ≠ '0')
      (hrest : ∀ d ∈ rest, d.isDigit = true) : IsInteger (c :: rest)

/-- The fraction of a number, which may be missing. -/
inductive IsFraction : List Char → Prop
  | missing : IsFraction []
  | point {digits : List Char} (h : IsDigits digits) : IsFraction ('.' :: digits)

/-- The exponent of a number, which may be missing. -/
inductive IsExponent : List Char → Prop
  | missing : IsExponent []
  | mark {mark : Char} {sign digits : List Char} (hmark : mark = 'e' ∨ mark = 'E')
      (hsign : sign = [] ∨ sign = ['+'] ∨ sign = ['-']) (h : IsDigits digits) :
      IsExponent (mark :: (sign ++ digits))

/-- A number, or one of the words that are values. -/
inductive IsScalar : List Char → Prop
  | number {sign integer fraction exponent : List Char} (hsign : sign = [] ∨ sign = ['-'])
      (hinteger : IsInteger integer) (hfraction : IsFraction fraction)
      (hexponent : IsExponent exponent) : IsScalar (sign ++ integer ++ fraction ++ exponent)
  | true : IsScalar ['t', 'r', 'u', 'e']
  | false : IsScalar ['f', 'a', 'l', 's', 'e']
  | null : IsScalar ['n', 'u', 'l', 'l']

/-! ## Quoted texts -/

/-- The letters of the short escapes and the characters that they name. -/
def shortEscapes : List (Char × Char) :=
  [('"', '"'), ('\\', '\\'), ('/', '/'), ('b', '\x08'), ('f', '\x0c'), ('n', '\n'), ('r', '\r'),
    ('t', '\t')]

/-- The character is a hexadecimal digit of the given value, in lower or upper case. -/
def HexDigit (c : Char) (value : Nat) : Prop :=
  "0123456789abcdef".toList[value]? = some c ∨ "0123456789ABCDEF".toList[value]? = some c

/-- The character stands for itself between quotes: it is neither the quote nor the backslash nor a
control character below U+0020. -/
def IsPlain (c : Char) : Prop :=
  c ≠ '"' ∧ c ≠ '\\' ∧ 0x20 ≤ c.toNat

instance (c : Char) : Decidable (IsPlain c) :=
  inferInstanceAs (Decidable (_ ∧ _))

/-- All characters of the text stand for themselves. -/
def ArePlain (text : List Char) : Prop :=
  ∀ c ∈ text, IsPlain c

instance (text : List Char) : Decidable (ArePlain text) :=
  List.decidableBAll _ text

/-- How one unit is written between quotes. -/
inductive WrittenUnit : List Char → CodeUnit → Prop
  /-- A character that stands for itself. -/
  | plain {c : Char} (h : IsPlain c) : WrittenUnit [c] (.char c)
  /-- A short escape. -/
  | short {letter c : Char} (h : (letter, c) ∈ shortEscapes) :
      WrittenUnit ['\\', letter] (.char c)
  /-- An escape with four hexadecimal digits. -/
  | hex {a b c d : Char} {i j k l : Nat} (ha : HexDigit a i) (hb : HexDigit b j)
      (hc : HexDigit c k) (hd : HexDigit d l) :
      WrittenUnit ['\\', 'u', a, b, c, d] (.unit (((i * 16 + j) * 16 + k) * 16 + l))

/-- How units are written between quotes, one after the other. -/
inductive Written : List Char → List CodeUnit → Prop
  | nil : Written [] []
  | cons {piece text : List Char} {unit : CodeUnit} {units : List CodeUnit}
      (hpiece : WrittenUnit piece unit) (htext : Written text units) :
      Written (piece ++ text) (unit :: units)

/-- The characters that units stand for. -/
inductive Decodes : List CodeUnit → List Char → Prop
  | nil : Decodes [] []
  /-- A character that is written as such. -/
  | char {c : Char} {units : List CodeUnit} {chars : List Char} (h : Decodes units chars) :
      Decodes (.char c :: units) (c :: chars)
  /-- The number of a character, which no half of a surrogate pair is. -/
  | unit {value : Nat} {units : List CodeUnit} {chars : List Char}
      (hvalue : value < 0xD800 ∨ 0xE000 ≤ value) (h : Decodes units chars) :
      Decodes (.unit value :: units) (Char.ofNat value :: chars)
  /-- The two halves of a surrogate pair. -/
  | pair {high low : Nat} {units : List CodeUnit} {chars : List Char} (hhigh : high < 0x400)
      (hlow : low < 0x400) (h : Decodes units chars) :
      Decodes (.unit (0xD800 + high) :: .unit (0xDC00 + low) :: units)
        (Char.ofNat (0x10000 + high * 0x400 + low) :: chars)

/-- The text may stand between quotes. -/
def IsQuotable (text : List Char) : Prop :=
  ∃ units, Written text units

/-- The text may stand between quotes, where it denotes the given characters. -/
def Denotes (text chars : List Char) : Prop :=
  ∃ units, Written text units ∧ Decodes units chars

/-- A text between quotes. -/
def inQuotes (text : List Char) : List Char :=
  '"' :: text ++ ['"']

/-! ## Arrays and objects -/

/-- The text consists of two brackets and, between them, of the given pieces with commas between
them. Without a piece there may still be white space. -/
inductive Encloses (left right : Char) : List (List Char) → List Char → Prop
  | empty {space : List Char} (h : IsSpace space) :
      Encloses left right [] (left :: space ++ [right])
  | pieces {pieces : List (List Char)} (h : pieces ≠ []) :
      Encloses left right pieces (left :: [','].intercalate pieces ++ [right])

/-- An element of an array. -/
structure Element where
  /-- The value. -/
  value : List Char
  /-- The white space around it. -/
  spaces : Spaces

/-- The text of an element. -/
def Element.text (element : Element) : List Char :=
  element.spaces.around element.value

/-- A member of an object. -/
structure Member where
  /-- The key, which stands between quotes. -/
  key : List Char
  /-- The value. -/
  value : List Char
  /-- The white space around the key. -/
  keySpaces : Spaces
  /-- The white space around the value. -/
  valueSpaces : Spaces
  /-- The key may stand between quotes. -/
  isQuotable_key : IsQuotable key

/-- The text of a member. -/
def Member.text (member : Member) : List Char :=
  member.keySpaces.around (inQuotes member.key) ++
    ':' :: member.valueSpaces.around member.value

/-- A value of any depth. -/
inductive IsValue : List Char → Prop
  | scalar {text : List Char} (h : IsScalar text) : IsValue text
  | text {text : List Char} (h : IsQuotable text) : IsValue (inQuotes text)
  | array {elements : List Element} {text : List Char}
      (htext : Encloses '[' ']' (elements.map Element.text) text)
      (h : ∀ element ∈ elements, IsValue element.value) : IsValue text
  | object {members : List Member} {text : List Char}
      (htext : Encloses '{' '}' (members.map Member.text) text)
      (h : ∀ member ∈ members, IsValue member.value) : IsValue text

/-- The text is an object with the given members in their order, perhaps with white space around
it. -/
def IsObject (members : List Member) (text : List Char) : Prop :=
  (∃ (spaces : Spaces) (object : List Char), text = spaces.around object ∧
    Encloses '{' '}' (members.map Member.text) object) ∧
  ∀ member ∈ members, IsValue member.value

end Agenda.Json
