import Agenda.Json.Token

/-!
# Reading JSON

A text is JSON if its tokens are those of one value. The reader keeps the arrays and objects that
are still open on a list of its own, so values may be nested to any depth.
-/

namespace Agenda.Json

/-- An array or object that is still open, with what it holds so far in reverse. -/
inductive Frame where
  /-- An open array. -/
  | array (elements : List Value)
  /-- An open object. -/
  | object (members : List (List CodeUnit × Value))
  /-- An open object in which the value of a key is being read. -/
  | member (members : List (List CodeUnit × Value)) (key : List CodeUnit)

/-- What the next token may be. -/
inductive Expect where
  /-- A value. -/
  | value
  /-- The first element of an array or its end. -/
  | elementOrEnd
  /-- The first key of an object or its end. -/
  | keyOrEnd
  /-- A key. -/
  | key
  /-- The colon behind a key. -/
  | colon
  /-- A comma or the end of the innermost open array or object. -/
  | commaOrEnd
  /-- Nothing: the value is complete. -/
  | nothing (value : Value)

/-- The reader: the open arrays and objects, innermost first, and what comes next. -/
structure Reading where
  /-- The open arrays and objects, innermost first. -/
  frames : List Frame
  /-- What the next token may be. -/
  expect : Expect

namespace Reading

/-- Put a complete value where it belongs. -/
def complete (value : Value) : List Frame → Option Reading
  | [] => some ⟨[], .nothing value⟩
  | .array elements :: frames => some ⟨.array (value :: elements) :: frames, .commaOrEnd⟩
  | .member members key :: frames =>
    some ⟨.object ((key, value) :: members) :: frames, .commaOrEnd⟩
  | .object _ :: _ => none

/-- Take a token that begins a value. -/
def begin (frames : List Frame) : Token → Option Reading
  | .scalar => complete .scalar frames
  | .text units => complete (.text units) frames
  | .openBracket => some ⟨.array [] :: frames, .elementOrEnd⟩
  | .openBrace => some ⟨.object [] :: frames, .keyOrEnd⟩
  | _ => none

/-- Take a token that ends the innermost open array or object. -/
def close : List Frame → Token → Option Reading
  | .array elements :: frames, .closeBracket => complete (.array elements.reverse) frames
  | .object members :: frames, .closeBrace => complete (.object members.reverse) frames
  | _, _ => none

/-- Take a key. -/
def key : List Frame → Token → Option Reading
  | .object members :: frames, .text units => some ⟨.member members units :: frames, .colon⟩
  | _, _ => none

/-- Take a comma. -/
def comma : List Frame → Option Reading
  | .array elements :: frames => some ⟨.array elements :: frames, .value⟩
  | .object members :: frames => some ⟨.object members :: frames, .key⟩
  | _ => none

/-- Take one token. -/
def step (reading : Reading) (token : Token) : Option Reading :=
  let frames := reading.frames
  match reading.expect with
  | .value => begin frames token
  | .elementOrEnd => if token = .closeBracket then close frames token else begin frames token
  | .keyOrEnd => if token = .closeBrace then close frames token else key frames token
  | .key => key frames token
  | .colon => if token = .colon then some ⟨frames, .value⟩ else none
  | .commaOrEnd => if token = .comma then comma frames else close frames token
  | .nothing _ => none

/-- The value, if it is complete. -/
def finish (reading : Reading) : Option Value :=
  match reading.expect with
  | .nothing value => some value
  | _ => none

end Reading

/-- The value that a sequence of tokens forms. -/
def Value.ofTokens? (tokens : List Token) : Option Value :=
  (tokens.foldlM Reading.step ⟨[], .value⟩).bind Reading.finish

/-- The value that a text holds, if the text is JSON. -/
def Value.ofChars? (text : List Char) : Option Value :=
  (Token.ofChars? text).bind Value.ofTokens?

end Agenda.Json
