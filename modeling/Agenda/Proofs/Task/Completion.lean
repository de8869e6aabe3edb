import Agenda.Proofs.Task.Preparation

/-!
# What becomes of a done task

A done task is checked from the rule over the date, and its title does not matter. A task that passes
is removed if it has no rule. Otherwise it comes back on the next occurrence after today or after its
own day, whichever is later. The search for that day may fail, but it never says that nothing is
left, so a task that recurs is not lost.

- `Task.Completes`: the ways in which a done task can end, one for each case.
- `Task.next_ne_nothingLeft`: a search for a rule that recurs does not say that nothing is left.
- `Task.complete_decided`: a done task ends in the way of its case and in no other.
-/

namespace Agenda.Task

variable {horizon : Horizon} {task : Task} {today due : Date} {rule : Rule}

/-- The task has a rule that is more than blanks. -/
def HasRule (task : Task) : Prop :=
  ∃ c ∈ task.rule.toList, Text.isBlankChar c = false

/-- What becomes of a done task. The rule is read before the date, so a case in which the date
matters says that the text of the rule names one. -/
inductive Completes (horizon : Horizon) (task : Task) (today : Date) :
    Except TaskError Completion → Prop
  /-- The text of the rule names none, whatever is given for the date. -/
  | malformedRule {cause : Rule.TextError} (hrule : ∀ rule, ¬ Rule.Named task.rule rule)
      (hcause : Rule.ofText task.rule = .error cause) :
      Completes horizon task today (.error (.rule (.text cause)))
  /-- There is no date. -/
  | missingDate {rule : Rule} (hrule : Rule.Named task.rule rule) (hdate : task.date = "") :
      Completes horizon task today (.error .missingDate)
  /-- What is given for the date is none. -/
  | malformedDate {rule : Rule} {cause : Date.TextError} (hrule : Rule.Named task.rule rule)
      (hgiven : task.date ≠ "") (hdate : ∀ due : Date, task.date ≠ due.text)
      (hcause : Date.ofText task.date = .error cause) :
      Completes horizon task today (.error (.malformedDate .due cause))
  /-- A task without a rule is removed, whatever its day, today and the horizon are. -/
  | removed {due : Date} (hblank : ∀ c ∈ task.rule.toList, Text.isBlankChar c = true)
      (hdate : task.date = due.text) :
      Completes horizon task today (.ok .removed)
  /-- A task that recurs comes back on the least occurrence after today and after its own day, if
  the search for it does not fail. Nothing but its date changes. -/
  | rescheduled {due next : Date} {rule : Rule} (hrecurs : task.HasRule)
      (hrule : Rule.Named task.rule rule) (hdate : task.date = due.text)
      (hfound : ∀ cause, rule.next horizon due (max today due) ≠ .error cause)
      (hleast : IsLeast (rule.occurrencesAfter due (max today due)) next) :
      Completes horizon task today (.ok (.rescheduled { task with date := next.text }))
  /-- A task that recurs fails as the search does. -/
  | failed {due : Date} {rule : Rule} {cause : SearchError} (hrecurs : task.HasRule)
      (hrule : Rule.Named task.rule rule) (hdate : task.date = due.text)
      (hcause : rule.next horizon due (max today due) = .error cause) :
      Completes horizon task today (.error (.rule (.search cause)))

/-! ## The fields -/

theorem hasRule_iff : task.HasRule ↔ Text.isBlank task.rule.toList = false := by
  unfold HasRule Text.isBlank
  simp

/-- A blank text names the rule `once`. -/
theorem named_once_of_blank (hblank : ∀ c ∈ task.rule.toList, Text.isBlankChar c = true) :
    Rule.Named task.rule .once := by
  have hwords : Text.words task.rule.toList = [] :=
    Text.words_eq_nil_iff.2 (List.all_eq_true.2 hblank)
  rw [← Rule.ofText_eq_ok_iff, Rule.ofText, hwords]
  rfl

/-- A rule that is more than blanks is not `once`. -/
theorem HasRule.ne_once (h : task.HasRule) (hrule : Rule.Named task.rule rule) : rule ≠ .once :=
  Rule.ne_once_of_ofText (Rule.ofText_eq_ok_iff.2 hrule) (hasRule_iff.1 h)

/-- The search for the next date of a task that recurs finds one or fails. -/
theorem next_ne_nothingLeft (h : task.HasRule) (hrule : Rule.Named task.rule rule)
    (horizon : Horizon) (due reference : Date) : rule.next horizon due reference ≠ .ok none := by
  intro hnext
  obtain ⟨next, hnone, -⟩ := exists_isLeast_of_next hrule (h.ne_once hrule) hnext
  cases hnone

/-! ## The cases -/

/-- A done task is checked for its date once its rule is read. -/
private theorem complete_of_named (hrule : Rule.Named task.rule rule) :
    task.complete horizon today =
      readDue task.date >>= fun due =>
        if rule.isOnce then .ok .removed
        else nextOccurrence horizon rule due (max today due) >>= fun next? =>
          match next? with
          | none => .ok .removed
          | some next => .ok (.rescheduled { task with date := next.text }) := by
  unfold complete
  rw [readRule_eq_ok_iff.2 (Rule.ofText_eq_ok_iff.2 hrule)]
  rfl

theorem complete_of_malformedRule {cause : Rule.TextError}
    (hcause : Rule.ofText task.rule = .error cause) :
    task.complete horizon today = .error (.rule (.text cause)) := by
  unfold complete
  rw [readRule, Rule.read, hcause]
  rfl

theorem complete_of_missingDate (hrule : Rule.Named task.rule rule) (hdate : task.date = "") :
    task.complete horizon today = .error .missingDate := by
  rw [complete_of_named hrule, hdate]
  rfl

theorem complete_of_malformedDate {cause : Date.TextError} (hrule : Rule.Named task.rule rule)
    (hgiven : task.date ≠ "") (hcause : Date.ofText task.date = .error cause) :
    task.complete horizon today = .error (.malformedDate .due cause) := by
  have hread : readDue task.date = .error (.malformedDate .due cause) := by
    rw [readDue, if_neg (mt String.isEmpty_iff.1 hgiven), readDate, hcause]
    rfl
  rw [complete_of_named hrule, hread]
  rfl

theorem complete_of_blank (hblank : ∀ c ∈ task.rule.toList, Text.isBlankChar c = true)
    (hdate : task.date = due.text) : task.complete horizon today = .ok .removed := by
  have hread : readDue task.date = .ok due := readDue_eq_ok_iff.2 (Date.ofText_eq_ok_iff.2 hdate)
  rw [complete_of_named (named_once_of_blank hblank), hread]
  rfl

theorem complete_of_recurs (hrecurs : task.HasRule) (hrule : Rule.Named task.rule rule)
    (hdate : task.date = due.text) :
    task.complete horizon today =
      match rule.next horizon due (max today due) with
      | .error error => .error (.rule (.search error))
      | .ok none => .ok .removed
      | .ok (some next) => .ok (.rescheduled { task with date := next.text }) :=
  complete_of_readable (Rule.ofText_eq_ok_iff.2 hrule) (Date.ofText_eq_ok_iff.2 hdate)
    (Rule.isOnce_eq_false_iff.2 (hrecurs.ne_once hrule))

/-- A task whose rule and date can be read is removed, comes back or fails as the search does. -/
private theorem completes_of_readable (horizon : Horizon) (today : Date)
    (hrule : Rule.Named task.rule rule) (hdate : task.date = due.text) :
    Completes horizon task today (task.complete horizon today) := by
  by_cases hrecurs : task.HasRule
  · rw [complete_of_recurs hrecurs hrule hdate]
    cases hnext : rule.next horizon due (max today due) with
    | error cause => exact .failed hrecurs hrule hdate hnext
    | ok next? =>
      have hfound (cause : SearchError) :
          rule.next horizon due (max today due) ≠ .error cause := by
        rw [hnext]
        exact nofun
      obtain ⟨next, rfl, hleast⟩ := exists_isLeast_of_next hrule (hrecurs.ne_once hrule) hnext
      exact .rescheduled hrecurs hrule hdate hfound hleast
  · have hblank : ∀ c ∈ task.rule.toList, Text.isBlankChar c = true := by
      simpa [HasRule] using hrecurs
    rw [complete_of_blank hblank hdate]
    exact .removed hblank hdate

/-- Every done task ends in one of the ways. -/
private theorem completes_complete (horizon : Horizon) (task : Task) (today : Date) :
    Completes horizon task today (task.complete horizon today) := by
  -- The fields are looked at in the order in which they are checked.
  cases hread : Rule.ofText task.rule with
  | error cause =>
    rw [complete_of_malformedRule hread]
    exact .malformedRule (not_named_of_ofText_eq_error hread) hread
  | ok rule =>
    have hrule : Rule.Named task.rule rule := Rule.ofText_eq_ok_iff.1 hread
    by_cases hempty : task.date = ""
    · rw [complete_of_missingDate hrule hempty]
      exact .missingDate hrule hempty
    cases hdue : Date.ofText task.date with
    | error cause =>
      rw [complete_of_malformedDate hrule hempty hdue]
      exact .malformedDate hrule hempty (ne_text_of_ofText_eq_error hdue) hdue
    | ok due => exact completes_of_readable horizon today hrule (Date.ofText_eq_ok_iff.1 hdue)

/-- A case that applies to a done task says what becomes of it. -/
private theorem Completes.complete_eq {answer : Except TaskError Completion}
    (h : Completes horizon task today answer) : task.complete horizon today = answer := by
  cases h with
  | malformedRule _ hcause => exact complete_of_malformedRule hcause
  | missingDate hrule hdate => exact complete_of_missingDate hrule hdate
  | malformedDate hrule hgiven _ hcause => exact complete_of_malformedDate hrule hgiven hcause
  | removed hblank hdate => exact complete_of_blank hblank hdate
  | rescheduled hrecurs hrule hdate hfound hleast =>
    have hnext := next_eq_of_isLeast hrule (hrecurs.ne_once hrule) hfound hleast
    rw [complete_of_recurs hrecurs hrule hdate, hnext]
  | failed hrecurs hrule hdate hcause =>
    rw [complete_of_recurs hrecurs hrule hdate, hcause]

/-- A done task ends in the way of its case and in no other. The search for the next day of a task
that recurs never says that nothing is left, so such a task is not removed. -/
theorem complete_decided (horizon : Horizon) (task : Task) (today : Date) :
    (∀ answer, task.complete horizon today = answer ↔ Completes horizon task today answer) ∧
    ∀ rule due, task.HasRule → Rule.Named task.rule rule →
      rule.next horizon due (max today due) ≠ .ok none := by
  refine ⟨fun answer => ⟨?_, Completes.complete_eq⟩, fun rule due hrecurs hrule => ?_⟩
  · rintro rfl
    exact completes_complete horizon task today
  · exact next_ne_nothingLeft hrecurs hrule horizon due (max today due)

/-- On February 29: a monthly task of March 31 that is done early comes back at the end of May, a
rule that names no day fails without losing the task, a blank rule has the task removed even with a
horizon of no years, and a malformed rule counts before a malformed date. -/
theorem complete_decided_leapDay :
    let today : Date := ⟨2024, 2, 29, by decide⟩
    let march : Date := ⟨2024, 3, 31, by decide⟩
    let task (date rule : String) : Task := ⟨"7", date, "Rent", "", rule⟩
    let never : Rule := .monthly (.ofList [30]) (.ofList [2])
    Completes .standard (task "20240331" "m 31") today
        (.ok (.rescheduled (task "20240531" "m 31"))) ∧
      ((task "20240331" "m 30 2").HasRule ∧ Rule.Named "m 30 2" never ∧
        never.next .standard march (max today march) ≠ .ok none) ∧
      Completes ⟨0⟩ (task "20240331" " \t") today (.ok .removed) ∧
      Completes .standard (task "20240230" "w 8") today
        (.error (.rule (.text ⟨.weekday, some "8"⟩))) := by
  intro today march task never
  have hearly : (task "20240331" "m 31").complete .standard today =
      .ok (.rescheduled (task "20240531" "m 31")) := by decide
  have hblank : (task "20240331" " \t").complete ⟨0⟩ today = .ok .removed := by decide
  have hmalformed : (task "20240230" "w 8").complete .standard today =
      .error (.rule (.text ⟨.weekday, some "8"⟩)) := by decide
  have hrecurs : (task "20240331" "m 30 2").HasRule := ⟨'m', by decide, by decide⟩
  have hrule : Rule.Named "m 30 2" never := Rule.ofText_eq_ok_iff.1 (by decide)
  exact ⟨((complete_decided .standard (task "20240331" "m 31") today).1 _).1 hearly,
    ⟨hrecurs, hrule,
      (complete_decided .standard (task "20240331" "m 30 2") today).2 never march hrecurs hrule⟩,
    ((complete_decided ⟨0⟩ (task "20240331" " \t") today).1 _).1 hblank,
    ((complete_decided .standard (task "20240230" "w 8") today).1 _).1 hmalformed⟩

end Agenda.Task
