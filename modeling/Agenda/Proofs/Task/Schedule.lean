import Agenda.Proofs.Date.Text
import Agenda.Proofs.Except
import Agenda.Task.Schedule

/-!
# What becomes of a task

Preparing and completing a task without their errors: under which conditions they succeed, and with
which task.

- `Task.prepare_of_title`: the steps of preparing a task.
- `Task.prepare_eq_ok_iff`: the tasks that are accepted, and what they become.
- `Task.prepare_of_readable`: what becomes of a past task whose rule and date can be read.
- `Task.complete_of_readable`: what becomes of a done task whose rule and date can be read.
-/

namespace Agenda.Task

variable {horizon : Horizon} {task : Task} {today : Date}

theorem readRule_eq_ok_iff {text : String} {rule : Rule} :
    readRule text = .ok rule ↔ Rule.ofText text = .ok rule := by
  unfold readRule Rule.read
  rw [mapError_eq_ok_iff, mapError_eq_ok_iff]

/-- The day a task is due is read from its text, which no empty text is. -/
theorem readDue_eq_ok_iff {text : String} {due : Date} :
    readDue text = .ok due ↔ Date.ofText text = .ok due := by
  unfold readDue readDate
  split
  next hempty =>
    have htext : text = "" := by simpa using hempty
    subst htext
    exact ⟨nofun, nofun⟩
  next => exact mapError_eq_ok_iff

/-- The day that is given for a task is read from its text, and is today if there is none. -/
theorem givenDue_eq_ok_iff {due : Date} :
    task.givenDue today = .ok due ↔
      if task.date.isEmpty then due = today else Date.ofText task.date = .ok due := by
  unfold givenDue readDate
  split
  next => exact ⟨fun h => (Except.ok.inj h).symm, fun h => congrArg Except.ok h.symm⟩
  next => exact mapError_eq_ok_iff

/-- A date that can be read is the day the task is due. -/
theorem givenDue_of_ofText {due : Date} (hdue : Date.ofText task.date = .ok due) :
    task.givenDue today = .ok due := by
  rw [givenDue_eq_ok_iff, Date.isEmpty_eq_false_of_ofText hdue]
  exact hdue

/-- A task with a title is prepared by reading its date, reading its rule and bringing it
forward. -/
theorem prepare_of_title (htitle : Text.isBlank task.title.toList = false) :
    task.prepare horizon today =
      task.givenDue today >>= fun given => readRule task.rule >>= fun rule =>
        broughtForward horizon rule given today >>= fun due =>
          .ok { task with date := due.text } := by
  unfold prepare
  rw [htitle]
  rfl

/-- A task is accepted if it has a title, its date and its rule can be read, and a past date can be
brought forward. Nothing else about it changes. -/
theorem prepare_eq_ok_iff {prepared : Task} :
    task.prepare horizon today = .ok prepared ↔
      Text.isBlank task.title.toList = false ∧
        ∃ given rule due, task.givenDue today = .ok given ∧ Rule.ofText task.rule = .ok rule ∧
          broughtForward horizon rule given today = .ok due ∧
          { task with date := due.text } = prepared := by
  cases htitle : Text.isBlank task.title.toList with
  | true =>
    unfold prepare
    rw [htitle]
    exact ⟨nofun, nofun⟩
  | false =>
    rw [prepare_of_title htitle]
    simp only [bind_eq_ok_iff, readRule_eq_ok_iff]
    constructor
    · rintro ⟨given, hgiven, rule, hrule, due, hdue, hprepared⟩
      exact ⟨trivial, given, rule, due, hgiven, hrule, hdue, Except.ok.inj hprepared⟩
    · rintro ⟨-, given, rule, due, hgiven, hrule, hdue, hprepared⟩
      exact ⟨given, hgiven, rule, hrule, due, hdue, congrArg Except.ok hprepared⟩

/-- A past task that has a title and whose rule and date can be read is brought forward to the next
occurrence after today, or to today if there is none. -/
theorem prepare_of_readable {rule : Rule} {due : Date}
    (htitle : Text.isBlank task.title.toList = false) (hrule : Rule.ofText task.rule = .ok rule)
    (hdue : Date.ofText task.date = .ok due) (hpast : due < today) :
    task.prepare horizon today =
      match rule.next horizon due today with
      | .error error => .error (.rule (.search error))
      | .ok next? => .ok { task with date := (next?.getD today).text } := by
  have hforward : broughtForward horizon rule due today =
      (·.getD today) <$> nextOccurrence horizon rule due today := if_pos hpast
  rw [prepare_of_title htitle, givenDue_of_ofText hdue, readRule_eq_ok_iff.2 hrule]
  change (broughtForward horizon rule due today >>= fun due =>
    Except.ok { task with date := due.text }) = _
  rw [hforward]
  unfold nextOccurrence
  cases rule.next horizon due today <;> rfl

/-- A done task whose rule and date can be read comes back on the next occurrence after today or its
own day, and is removed if there is none. -/
theorem complete_of_readable {rule : Rule} {due : Date} (hrule : Rule.ofText task.rule = .ok rule)
    (hdue : Date.ofText task.date = .ok due) (hrecurs : rule.isOnce = false) :
    task.complete horizon today =
      match rule.next horizon due (max today due) with
      | .error error => .error (.rule (.search error))
      | .ok none => .ok .removed
      | .ok (some next) => .ok (.rescheduled { task with date := next.text }) := by
  unfold complete nextOccurrence
  rw [readRule_eq_ok_iff.2 hrule, readDue_eq_ok_iff.2 hdue]
  change (if rule.isOnce then _ else _) = _
  rw [hrecurs, if_neg Bool.false_ne_true]
  cases rule.next horizon due (max today due) with
  | error error => rfl
  | ok next? => cases next? <;> rfl

end Agenda.Task
