import Agenda.CommandLine.Run
import Agenda.Proofs.Task.Json
import Agenda.Proofs.Task.Outcome
import Agenda.Proofs.Text.Printable

/-!
# What a command writes

A command knows all that it writes before it begins to, so a command that fails has written nothing.
One that does not fail has written one line, whose characters are none of them control characters:
nothing in a task can break the line. The line of a done task tells a task that is removed from one
that comes back, and the line of a prepared task is input for which the same line is written again.

- `Action.WritesLine`: an action fails and writes nothing, or writes one line of a given kind.
- `Command.execute_writes_line`: every command does so, and what the line of a done task says.
- `Command.run_prepareTask_again`: a prepared task is prepared again to the same output.
-/

namespace Agenda

open Text (Printable)

/-! ## Actions that write a line -/

namespace Action

/-- Whatever is written already, the action either fails and writes nothing, or goes on and writes a
line of the given kind and its end behind it. -/
def WritesLine (kind : String → Prop) (action : Action Unit) : Prop :=
  ∀ written, (∃ cause, action written = .error cause written) ∨
    ∃ line, kind line ∧ action written = .ok () (written ++ (line ++ "\n"))

variable {ε α : Type} {reason : ε → CommandError} {result : Except ε α}
  {kind : String → Prop} {line : String}

theorem attempt_ok (reason : ε → CommandError) (a : α) (f : α → Action Unit) :
    (attempt reason (.ok a) >>= f) = f a :=
  rfl

theorem attempt_error (reason : ε → CommandError) (error : ε) (f : α → Action Unit)
    (written : String) :
    (attempt reason (.error error) >>= f) written = .error (reason error) written :=
  rfl

/-- An action that begins with a computation goes on exactly if the computation succeeds. -/
theorem attempt_bind_eq_ok_iff {f : α → Action Unit} {written output : String} :
    (attempt reason result >>= f) written = .ok () output ↔
      ∃ a, result = .ok a ∧ f a written = .ok () output := by
  cases result with
  | error error =>
    rw [attempt_error]
    exact ⟨nofun, nofun⟩
  | ok a =>
    rw [attempt_ok]
    refine ⟨fun h => ⟨a, rfl, h⟩, ?_⟩
    rintro ⟨_, ha, h⟩
    cases ha
    exact h

/-- A line that is written at once, with its end. -/
theorem writesLine_write (h : kind line) : WritesLine kind (write (line ++ "\n")) :=
  fun _ => Or.inr ⟨line, h, rfl⟩

/-- A line whose end is written apart. -/
theorem writesLine_write_end (h : kind line) :
    WritesLine kind (do write line; write "\n") := by
  intro written
  refine Or.inr ⟨line, h, ?_⟩
  rw [← String.append_assoc]
  rfl

/-- A computation comes before the line: if it fails, nothing is written. -/
theorem WritesLine.attempt {f : α → Action Unit}
    (h : ∀ a, result = .ok a → WritesLine kind (f a)) :
    WritesLine kind (attempt reason result >>= f) := by
  cases result with
  | error error => exact fun written => Or.inl ⟨reason error, attempt_error reason error f written⟩
  | ok a => exact h a rfl

theorem WritesLine.imp {kind' : String → Prop} {action : Action Unit} (h : WritesLine kind action)
    (hkind : ∀ line, kind line → kind' line) : WritesLine kind' action := by
  intro written
  rcases h written with hfails | ⟨line, hline, hwritten⟩
  · exact Or.inl hfails
  · exact Or.inr ⟨line, hkind line hline, hwritten⟩

end Action

/-! ## Commands -/

namespace Command

open Agenda.Action (WritesLine)

variable {years : UInt16} {horizon : Horizon} {today : Date} {input : ByteArray}

/-- What the line that is written of a done task says. It is an empty object if the task is removed,
which has a blank rule then. Otherwise it is no empty object, and it is read as the task that comes
back. -/
def Tells (task : Task) (line : String) : Completion → Prop
  | .removed => line = String.ofList ['{', '}'] ∧ Text.isBlank task.rule.toList = true
  | .rescheduled next =>
    line ≠ String.ofList ['{', '}'] ∧ Text.isBlank task.rule.toList = false ∧
      Task.ofJson? line = some next

/-- The line of a done task: what became of the task that the input holds, and what the line says. -/
def TellsCompletion (horizon : Horizon) (today : Date) (input : ByteArray) (line : String) : Prop :=
  ∃ task completion, readTask input = .ok task ∧ task.complete horizon today = .ok completion ∧
    Tells task line completion

/-- What is written of a done task says what became of it. -/
theorem tells_completionText {task : Task} {completion : Completion}
    (h : task.complete horizon today = .ok completion) :
    Tells task (completionText completion) completion := by
  rcases Task.complete_eq_ok h with ⟨rfl, hblank⟩ | ⟨next, rfl, hblank⟩
  · exact ⟨rfl, hblank⟩
  · refine ⟨fun hline => ?_, hblank, Task.ofJson?_toJson _⟩
    -- The empty object is the written form of the task without fields, but there is a date.
    have hempty : Task.toJson { task with date := next.text } = Task.empty.toJson := hline
    have hread := Task.ofJson?_toJson { task with date := next.text }
    rw [hempty, Task.ofJson?_toJson] at hread
    exact next.text_ne_empty (congrArg Task.date (Option.some.inj hread)).symm

/-- The line of a done task is printable and says what became of it. -/
theorem perform_completeTask (horizon : Horizon) (today : Date) (input : ByteArray) :
    WritesLine (fun line => Printable line.toList ∧ TellsCompletion horizon today input line)
      (completeTask.perform horizon today input) := by
  refine .attempt fun task htask => .attempt fun completion hcompletion => ?_
  refine Action.writesLine_write_end ⟨?_, task, completion, htask, hcompletion,
    tells_completionText hcompletion⟩
  -- The two braces are printable, and so is every written task.
  cases completion with
  | removed => exact .cons (by decide) (.cons (by decide) .nil)
  | rescheduled next => exact next.printable_toJson

/-- Every command writes a printable line or nothing. -/
theorem perform_printable (command : Command) (horizon : Horizon) (today : Date)
    (input : ByteArray) : WritesLine (Printable ·.toList) (command.perform horizon today input) := by
  cases command with
  | nextDate date now rule =>
    refine .attempt fun next _ => Action.writesLine_write ?_
    cases next with
    | none => exact .nil
    | some next => exact next.printable_text
  | checkRule rule => exact .attempt fun rule _ => Action.writesLine_write rule.printable_text
  | prepareTask =>
    exact .attempt fun _ _ => .attempt fun prepared _ =>
      Action.writesLine_write_end prepared.printable_toJson
  | completeTask => exact (perform_completeTask horizon today input).imp fun _ h => h.1

/-- A horizon of some years has as many years. -/
theorem eq_of_ofYears (h : Horizon.ofYears years = .ok horizon) : horizon = ⟨years⟩ := by
  unfold Horizon.ofYears at h
  split at h <;> cases h
  rfl

/-- Every command, whatever it is given, fails and writes nothing or writes one line, in which no
character is a control character and so none is a line break. The line of a done task is the empty
object if the task is removed, which is the case if its rule is blank, and otherwise it is read as
the task that comes back. -/
theorem execute_writes_line (years : UInt16) (today : Date) (input : ByteArray) :
    (∀ command : Command, WritesLine (Printable ·.toList) (command.execute years today input)) ∧
      WritesLine (TellsCompletion ⟨years⟩ today input) (completeTask.execute years today input) := by
  constructor
  · intro command
    exact .attempt fun horizon _ => command.perform_printable horizon today input
  · -- The command only begins with the horizon that was asked for.
    refine .attempt fun horizon hyears => ?_
    rw [← eq_of_ofYears hyears]
    exact (perform_completeTask horizon today input).imp fun _ h => h.2

/-! ## Preparing again -/

/-- What is written of a task is input that holds the task. -/
theorem readTask_toJson (task : Task) : readTask (task.toJson ++ "\n").toUTF8 = .ok task := by
  have hbytes : String.fromUTF8? (task.toJson ++ "\n").toUTF8 = some (task.toJson ++ "\n") :=
    dif_pos (task.toJson ++ "\n").isValidUTF8
  have hread : Task.ofJson? (task.toJson ++ "\n") = some task := by
    have hspace := @Task.ofJson?_of_space task ['\n'] rfl
    rwa [String.ofList_append] at hspace
  simp only [readTask, hbytes, hread]

/-- The output of a command is what it writes if nothing was written before. -/
theorem run_eq_ok_iff {command : Command} {output : String} :
    command.run years today input = .ok output ↔
      command.execute years today input "" = .ok () output := by
  unfold run
  cases command.execute years today input "" <;> simp

/-- What is written of a prepared task. -/
theorem run_prepareTask_eq_ok_iff {output : String} :
    prepareTask.run years today input = .ok output ↔
      ∃ horizon task prepared, Horizon.ofYears years = .ok horizon ∧ readTask input = .ok task ∧
        task.prepare horizon today = .ok prepared ∧ prepared.toJson ++ "\n" = output := by
  -- Nothing was written before, so what is written here is the whole output.
  have hwrite : ∀ prepared : Task, (do Action.write prepared.toJson; Action.write "\n") "" =
      (.ok () (prepared.toJson ++ "\n") : EStateM.Result CommandError String Unit) := by
    intro prepared
    show EStateM.Result.ok () ("" ++ prepared.toJson ++ "\n") = _
    rw [String.empty_append]
  simp only [run_eq_ok_iff, execute, perform, Action.attempt_bind_eq_ok_iff, hwrite,
    EStateM.Result.ok.injEq, true_and]
  constructor
  · rintro ⟨horizon, hyears, task, htask, prepared, hprepared, houtput⟩
    exact ⟨horizon, task, prepared, hyears, htask, hprepared, houtput⟩
  · rintro ⟨horizon, task, prepared, hyears, htask, hprepared, houtput⟩
    exact ⟨horizon, hyears, task, htask, prepared, hprepared, houtput⟩

/-- The output of a command that prepares a task is input for which the same command, on the same day
and with the same settings, has the same output. -/
theorem run_prepareTask_again {output : String}
    (h : prepareTask.run years today input = .ok output) :
    prepareTask.run years today output.toUTF8 = .ok output := by
  obtain ⟨horizon, task, prepared, hyears, -, hprepared, rfl⟩ := run_prepareTask_eq_ok_iff.1 h
  -- The second time, the prepared task is what is read as well as what is written.
  exact run_prepareTask_eq_ok_iff.2 ⟨horizon, prepared, prepared, hyears, readTask_toJson prepared,
    Task.prepare_prepared hprepared, rfl⟩

/-- A task is handed in as an array on January 26 and prepared for the day after. Handed in as the
object that is written of it, it is prepared to the same. -/
theorem run_prepareTask_again_weekly :
    let input : String := "[\"7\", \"20240113\", \"Gym\", \"\", \"d 7\"]"
    let output : String :=
      "\x7b\"id\":\"7\",\"date\":\"20240127\",\"title\":\"Gym\",\"repeat\":\"d 7\"\x7d\n"
    prepareTask.run 10 ⟨2024, 1, 26, by decide⟩ input.toUTF8 = .ok output ∧
      prepareTask.run 10 ⟨2024, 1, 26, by decide⟩ output.toUTF8 = .ok output := by
  intro input output
  have h : prepareTask.run 10 ⟨2024, 1, 26, by decide⟩ input.toUTF8 = .ok output := by decide
  exact ⟨h, run_prepareTask_again h⟩

end Command

end Agenda
