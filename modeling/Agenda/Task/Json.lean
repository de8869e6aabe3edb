import Agenda.Json.Parser
import Agenda.Json.Quoted
import Agenda.Task.Basic

/-!
# Tasks as JSON

A task is written as an object of its fields that are not empty, in their fixed order and without
white space.

Two shapes are read: an object, whose members may stand in any order and of which unknown ones are
passed over, and an array of the fields' texts in their order. A field may be missing but not
repeated, and its value has to be a text.
-/

namespace Agenda.Task

/-- A member of the written object; an empty field has none. -/
def member? (task : Task) (field : Field) : Option (List Char) :=
  let text := (task.get field).toList
  if text.isEmpty then none
  else some (Json.quote field.key.toList ++ ':' :: Json.quote text)

/-- The characters of the written form of a task. -/
def jsonChars (task : Task) : List Char :=
  '{' :: [','].intercalate (Field.all.filterMap task.member?) ++ ['}']

/-- The written form of a task. -/
def toJson (task : Task) : String :=
  String.ofList task.jsonChars

/-- The task with the given texts in the given fields and nothing in the others. -/
def ofFields (found : List (Field × String)) : Task :=
  found.foldl (fun task (field, text) => task.set field text) empty

/-- Take one member of an object. A key has to be a text without half surrogate pairs, a known key
must not have come before, and its value has to be a text. -/
def takeMember (found : List (Field × String)) (member : List Json.CodeUnit × Json.Value) :
    Option (List (Field × String)) := do
  let key ← Json.CodeUnit.decode member.1
  match Field.ofKey? (String.ofList key) with
  | none => return found
  | some field =>
    if found.any (·.1 = field) then none
    else
      let text ← member.2.chars?
      return found ++ [(field, String.ofList text)]

/-- The task that a JSON value stands for. -/
def ofValue? : Json.Value → Option Task
  | .object members => (members.foldlM takeMember []).map ofFields
  | .array elements =>
    if elements.length ≤ Field.all.length then do
      let texts ← elements.mapM (·.chars?)
      return ofFields (Field.all.zip (texts.map String.ofList))
    else none
  | _ => none

/-- The task that a JSON text stands for. -/
def ofJson? (text : String) : Option Task :=
  (Json.Value.ofChars? text.toList).bind ofValue?

end Agenda.Task
