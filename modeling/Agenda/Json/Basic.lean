/-!
# JSON values

Values as the JSON grammar has them. A quoted text is kept as the units it is written with, since
the grammar lets an escape name half of a surrogate pair, which is no character: such a text is
well formed but `CodeUnit.decode` finds nothing in it.
-/

namespace Agenda.Json

/-- One unit of a quoted text. -/
inductive CodeUnit where
  /-- A character, as it stands or named by a short escape. -/
  | char (c : Char)
  /-- The 16-bit unit that an escape with four hexadecimal digits names. -/
  | unit (value : Nat)
deriving DecidableEq

/-- The first half of a surrogate pair. -/
def isHighSurrogate (value : Nat) : Bool :=
  0xD800 ≤ value && value < 0xDC00

/-- The second half of a surrogate pair. -/
def isLowSurrogate (value : Nat) : Bool :=
  0xDC00 ≤ value && value < 0xE000

/-- The character that a surrogate pair stands for. -/
def pairChar (high low : Nat) : Char :=
  Char.ofNat (0x10000 + (high - 0xD800) * 0x400 + (low - 0xDC00))

namespace CodeUnit

/-- Decode the units of a text behind the characters found so far, which are given in reverse. -/
def decodeOnto (soFar : List Char) : List CodeUnit → Option (List Char)
  | [] => some soFar.reverse
  | char c :: rest => decodeOnto (c :: soFar) rest
  | unit value :: rest =>
    if isHighSurrogate value then
      match rest with
      | unit low :: rest =>
        if isLowSurrogate low then decodeOnto (pairChar value low :: soFar) rest else none
      | _ => none
    else if isLowSurrogate value then none
    else decodeOnto (Char.ofNat value :: soFar) rest

/-- The characters of a quoted text; a half of a surrogate pair that stands alone is none. -/
def decode (units : List CodeUnit) : Option (List Char) :=
  decodeOnto [] units

end CodeUnit

/-- A JSON value. -/
inductive Value where
  /-- A number, `true`, `false` or `null`; which of them is not told apart. -/
  | scalar
  /-- A quoted text. -/
  | text (units : List CodeUnit)
  /-- An array. -/
  | array (elements : List Value)
  /-- An object with its members in order, keys repeated or not. -/
  | object (members : List (List CodeUnit × Value))

/-- The characters of a value that is a text. -/
def Value.chars? : Value → Option (List Char)
  | text units => CodeUnit.decode units
  | _ => none

end Agenda.Json
