/-!
# Tasks

A task as it is handed in and given back. All its fields are texts, and a missing field is empty.
-/

namespace Agenda

/-- A task. -/
@[ext]
structure Task where
  /-- What the task is known by. -/
  id : String
  /-- The day it is due, in eight digits. -/
  date : String
  /-- What is to be done. -/
  title : String
  /-- Anything else about it. -/
  comment : String
  /-- The text of the rule by which it comes back. -/
  rule : String
deriving DecidableEq, Inhabited

namespace Task

/-- The fields of a task. -/
inductive Field where
  | id
  | date
  | title
  | comment
  | rule
deriving DecidableEq

namespace Field

/-- All fields, in the order in which they are written. -/
def all : List Field := [id, date, title, comment, rule]

/-- The name of a field in the written form of a task. -/
def key : Field → String
  | id => "id"
  | date => "date"
  | title => "title"
  | comment => "comment"
  | rule => "repeat"

/-- The field of the given name. -/
def ofKey? (name : String) : Option Field :=
  all.find? (·.key = name)

end Field

/-- The task of which every field is empty. -/
def empty : Task := ⟨"", "", "", "", ""⟩

/-- The text of a field. -/
def get (task : Task) : Field → String
  | .id => task.id
  | .date => task.date
  | .title => task.title
  | .comment => task.comment
  | .rule => task.rule

/-- The task with another text in one field. -/
def set (task : Task) (field : Field) (text : String) : Task :=
  match field with
  | .id => { task with id := text }
  | .date => { task with date := text }
  | .title => { task with title := text }
  | .comment => { task with comment := text }
  | .rule => { task with rule := text }

/-- A field that was set reads as the text it was set to, and every other field as before. -/
theorem get_set (task : Task) (field other : Field) (text : String) :
    (task.set field text).get other = if other = field then text else task.get other := by
  cases field <;> cases other <;> rfl

end Task

end Agenda
