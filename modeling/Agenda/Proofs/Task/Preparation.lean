import Agenda.Proofs.Rule.Phrase
import Agenda.Proofs.Task.Outcome

/-!
# How a task is prepared

A new or edited task is checked from the title over the date to the rule. A task that passes is due
today if it has no date, and keeps its date if that is not past. Only for a past date it matters
what the rule says: `once` brings the task to today, and any other rule to its next occurrence.

- `Task.Prepares`: the ways in which the preparation of a task can end, one for each case.
- `Task.prepare_decided`: it ends in the way of its case, and only the date may be another one.
-/

namespace Agenda.Task

variable {horizon : Horizon} {task : Task} {today due : Date} {rule : Rule}

/-- The task has a title that is more than blanks. -/
def HasTitle (task : Task) : Prop :=
  ∃ c ∈ task.title.toList, Text.isBlankChar c = false

/-- What the preparation of a new or edited task ends with. The checks are made from the title over
the date to the rule, so each case says that the checks before its own are passed. -/
inductive Prepares (horizon : Horizon) (task : Task) (today : Date) :
    Except TaskError Task → Prop
  /-- The title is blank. -/
  | missingTitle (htitle : ∀ c ∈ task.title.toList, Text.isBlankChar c = true) :
      Prepares horizon task today (.error .missingTitle)
  /-- There is a title, and what is given for the date is none. -/
  | malformedDate {cause : Date.TextError} (htitle : task.HasTitle) (hgiven : task.date ≠ "")
      (hdate : ∀ due : Date, task.date ≠ due.text) (hcause : Date.ofText task.date = .error cause) :
      Prepares horizon task today (.error (.malformedDate .due cause))
  /-- There is a title and no malformed date, but the text of the rule names none. -/
  | malformedRule {cause : Rule.TextError} (htitle : task.HasTitle)
      (hdate : task.date = "" ∨ ∃ due : Date, task.date = due.text)
      (hrule : ∀ rule, ¬ Rule.Named task.rule rule)
      (hcause : Rule.ofText task.rule = .error cause) :
      Prepares horizon task today (.error (.rule (.text cause)))
  /-- Without a date the task is due today, whether or not the rule has an occurrence. -/
  | undated {rule : Rule} (htitle : task.HasTitle) (hdate : task.date = "")
      (hrule : Rule.Named task.rule rule) :
      Prepares horizon task today (.ok { task with date := today.text })
  /-- A date that is not past is kept, whether or not the rule has an occurrence. -/
  | kept {due : Date} {rule : Rule} (htitle : task.HasTitle) (hdate : task.date = due.text)
      (hrule : Rule.Named task.rule rule) (hdue : today ≤ due) :
      Prepares horizon task today (.ok task)
  /-- A past task that does not recur is due today. -/
  | pastOnce {due : Date} (htitle : task.HasTitle) (hdate : task.date = due.text)
      (hrule : Rule.Named task.rule .once) (hpast : due < today) :
      Prepares horizon task today (.ok { task with date := today.text })
  /-- A past task that recurs is due on the least occurrence after today, if the search for it does
  not fail. -/
  | pastRecurs {due next : Date} {rule : Rule} (htitle : task.HasTitle)
      (hdate : task.date = due.text) (hrule : Rule.Named task.rule rule) (hrecurs : rule ≠ .once)
      (hpast : due < today) (hfound : ∀ cause, rule.next horizon due today ≠ .error cause)
      (hleast : IsLeast (rule.occurrencesAfter due today) next) :
      Prepares horizon task today (.ok { task with date := next.text })
  /-- A past task that recurs cannot be prepared if the search fails. -/
  | pastFails {due : Date} {rule : Rule} {cause : SearchError} (htitle : task.HasTitle)
      (hdate : task.date = due.text) (hrule : Rule.Named task.rule rule) (hrecurs : rule ≠ .once)
      (hpast : due < today) (hcause : rule.next horizon due today = .error cause) :
      Prepares horizon task today (.error (.rule (.search cause)))

/-! ## The fields -/

theorem hasTitle_iff : task.HasTitle ↔ Text.isBlank task.title.toList = false := by
  unfold HasTitle Text.isBlank
  simp

theorem not_hasTitle_iff : ¬ task.HasTitle ↔ Text.isBlank task.title.toList = true := by
  rw [hasTitle_iff, Bool.not_eq_false]

/-- What is not read as a date is not the text of one. -/
theorem ne_text_of_ofText_eq_error {text : String} {cause : Date.TextError}
    (hcause : Date.ofText text = .error cause) (date : Date) : text ≠ date.text := by
  rintro rfl
  rw [date.ofText_text] at hcause
  cases hcause

/-- What is not read as a rule names none. -/
theorem not_named_of_ofText_eq_error {text : String} {cause : Rule.TextError}
    (hcause : Rule.ofText text = .error cause) (rule : Rule) : ¬ Rule.Named text rule := by
  intro hrule
  rw [Rule.ofText_eq_ok_iff.2 hrule] at hcause
  cases hcause

theorem givenDue_of_empty (hdate : task.date = "") : task.givenDue today = .ok today := by
  rw [givenDue_eq_ok_iff, hdate]
  rfl

theorem givenDue_of_text (hdate : task.date = due.text) : task.givenDue today = .ok due :=
  givenDue_of_ofText (Date.ofText_eq_ok_iff.2 hdate)

theorem givenDue_of_malformed {cause : Date.TextError} (hgiven : task.date ≠ "")
    (hcause : Date.ofText task.date = .error cause) :
    task.givenDue today = .error (.malformedDate .due cause) := by
  unfold givenDue readDate
  rw [if_neg (mt String.isEmpty_iff.1 hgiven), hcause]
  rfl

/-! ## The cases -/

theorem prepare_of_missingTitle (htitle : ¬ task.HasTitle) :
    task.prepare horizon today = .error .missingTitle := by
  unfold prepare
  rw [not_hasTitle_iff.1 htitle]
  rfl

theorem prepare_of_malformedDate {cause : Date.TextError} (htitle : task.HasTitle)
    (hgiven : task.date ≠ "") (hcause : Date.ofText task.date = .error cause) :
    task.prepare horizon today = .error (.malformedDate .due cause) := by
  rw [prepare_of_title (hasTitle_iff.1 htitle), givenDue_of_malformed hgiven hcause]
  rfl

theorem prepare_of_malformedRule {cause : Rule.TextError} (htitle : task.HasTitle)
    (hgiven : task.givenDue today = .ok due) (hcause : Rule.ofText task.rule = .error cause) :
    task.prepare horizon today = .error (.rule (.text cause)) := by
  rw [prepare_of_title (hasTitle_iff.1 htitle), hgiven, readRule, Rule.read, hcause]
  rfl

/-- A task whose date is not past is due on that date. -/
theorem prepare_of_notPast (htitle : task.HasTitle) (hgiven : task.givenDue today = .ok due)
    (hrule : Rule.Named task.rule rule) (hdue : today ≤ due) :
    task.prepare horizon today = .ok { task with date := due.text } := by
  have hkept : broughtForward horizon rule due today = .ok due := if_neg (not_lt.2 hdue)
  have hread : readRule task.rule = .ok rule :=
    readRule_eq_ok_iff.2 (Rule.ofText_eq_ok_iff.2 hrule)
  rw [prepare_of_title (hasTitle_iff.1 htitle), hgiven, hread]
  change (broughtForward horizon rule due today >>= _) = _
  rw [hkept]
  rfl

theorem prepare_of_past (htitle : task.HasTitle) (hdate : task.date = due.text)
    (hrule : Rule.Named task.rule rule) (hpast : due < today) :
    task.prepare horizon today =
      match rule.next horizon due today with
      | .error error => .error (.rule (.search error))
      | .ok next? => .ok { task with date := (next?.getD today).text } :=
  prepare_of_readable (hasTitle_iff.1 htitle) (Rule.ofText_eq_ok_iff.2 hrule)
    (Date.ofText_eq_ok_iff.2 hdate) hpast

/-- A past `once` has no occurrence left. -/
theorem next_once_of_lt (horizon : Horizon) (hpast : due < today) :
    Rule.next .once horizon due today = .ok none :=
  congrArg Except.ok (if_neg (not_lt_of_gt hpast))

/-- If the search for the next date of a rule that recurs does not fail, it finds one. -/
theorem exists_isLeast_of_next {text : String} {next? : Option Date}
    (hrule : Rule.Named text rule) (hrecurs : rule ≠ .once)
    (hnext : rule.next horizon due today = .ok next?) :
    ∃ next, next? = some next ∧ IsLeast (rule.occurrencesAfter due today) next := by
  have hrange := Rule.inRange_of_ofText (Rule.ofText_eq_ok_iff.2 hrule)
  have hanswer := Rule.next_answer hrange horizon due today
  rw [hnext] at hanswer
  cases hanswer with
  | found hleast => exact ⟨_, rfl, hleast⟩
  | nothingLeft honce _ => exact absurd honce hrecurs

/-- It finds the least occurrence, of which there is only one. -/
theorem next_eq_of_isLeast {text : String} {next : Date}
    (hrule : Rule.Named text rule) (hrecurs : rule ≠ .once)
    (hfound : ∀ cause, rule.next horizon due today ≠ .error cause)
    (hleast : IsLeast (rule.occurrencesAfter due today) next) :
    rule.next horizon due today = .ok (some next) := by
  cases hnext : rule.next horizon due today with
  | error cause => exact absurd hnext (hfound cause)
  | ok next? =>
    obtain ⟨next', rfl, hleast'⟩ := exists_isLeast_of_next hrule hrecurs hnext
    rw [hleast.unique hleast']

/-- A past task is prepared in one of the three ways for past tasks. -/
private theorem prepares_of_past (horizon : Horizon) (htitle : task.HasTitle)
    (hdate : task.date = due.text) (hrule : Rule.Named task.rule rule) (hpast : due < today) :
    Prepares horizon task today (task.prepare horizon today) := by
  rw [prepare_of_past htitle hdate hrule hpast]
  -- For `once` the search says that nothing is left. For any other rule it finds a date or fails.
  by_cases hrecurs : rule = .once
  · subst hrecurs
    rw [next_once_of_lt horizon hpast]
    exact .pastOnce htitle hdate hrule hpast
  · cases hnext : rule.next horizon due today with
    | error cause => exact .pastFails htitle hdate hrule hrecurs hpast hnext
    | ok next? =>
      have hfound (cause : SearchError) : rule.next horizon due today ≠ .error cause := by
        rw [hnext]
        exact nofun
      obtain ⟨next, rfl, hleast⟩ := exists_isLeast_of_next hrule hrecurs hnext
      exact .pastRecurs htitle hdate hrule hrecurs hpast hfound hleast

/-- A task with a title and a day on which it is due is prepared in one of the ways, if it is when
its rule can be read. -/
private theorem prepares_of_givenDue (htitle : task.HasTitle)
    (hdate : task.date = "" ∨ ∃ due : Date, task.date = due.text)
    (hgiven : task.givenDue today = .ok due)
    (h : ∀ rule, Rule.Named task.rule rule →
      Prepares horizon task today (task.prepare horizon today)) :
    Prepares horizon task today (task.prepare horizon today) := by
  cases hread : Rule.ofText task.rule with
  | ok rule => exact h rule (Rule.ofText_eq_ok_iff.1 hread)
  | error cause =>
    rw [prepare_of_malformedRule htitle hgiven hread]
    exact .malformedRule htitle hdate (not_named_of_ofText_eq_error hread) hread

/-- Every task is prepared in one of the ways. -/
private theorem prepares_prepare (horizon : Horizon) (task : Task) (today : Date) :
    Prepares horizon task today (task.prepare horizon today) := by
  -- The fields are looked at in the order in which they are checked.
  by_cases htitle : task.HasTitle
  swap
  · rw [prepare_of_missingTitle htitle]
    exact .missingTitle (List.all_eq_true.1 (not_hasTitle_iff.1 htitle))
  by_cases hempty : task.date = ""
  · have hgiven : task.givenDue today = .ok today := givenDue_of_empty hempty
    refine prepares_of_givenDue htitle (Or.inl hempty) hgiven fun rule hrule => ?_
    rw [prepare_of_notPast htitle hgiven hrule le_rfl]
    exact .undated htitle hempty hrule
  cases hread : Date.ofText task.date with
  | error cause =>
    rw [prepare_of_malformedDate htitle hempty hread]
    exact .malformedDate htitle hempty (ne_text_of_ofText_eq_error hread) hread
  | ok due =>
    have hdate : task.date = due.text := Date.ofText_eq_ok_iff.1 hread
    have hgiven : task.givenDue today = .ok due := givenDue_of_text hdate
    refine prepares_of_givenDue htitle (Or.inr ⟨due, hdate⟩) hgiven fun rule hrule => ?_
    rcases le_or_gt today due with hdue | hpast
    · rw [prepare_of_notPast htitle hgiven hrule hdue, ← hdate]
      exact .kept htitle hdate hrule hdue
    · exact prepares_of_past horizon htitle hdate hrule hpast

/-- A case that applies to a task says how it is prepared. -/
private theorem Prepares.prepare_eq {answer : Except TaskError Task}
    (h : Prepares horizon task today answer) : task.prepare horizon today = answer := by
  cases h with
  | missingTitle htitle =>
    exact prepare_of_missingTitle (not_hasTitle_iff.2 (List.all_eq_true.2 htitle))
  | malformedDate htitle hgiven _ hcause => exact prepare_of_malformedDate htitle hgiven hcause
  | malformedRule htitle hdate _ hcause =>
    rcases hdate with hempty | ⟨due, hdate⟩
    · exact prepare_of_malformedRule htitle (givenDue_of_empty hempty) hcause
    · exact prepare_of_malformedRule htitle (givenDue_of_text hdate) hcause
  | undated htitle hdate hrule =>
    exact prepare_of_notPast htitle (givenDue_of_empty hdate) hrule le_rfl
  | kept htitle hdate hrule hdue =>
    rw [prepare_of_notPast htitle (givenDue_of_text hdate) hrule hdue, ← hdate]
  | pastOnce htitle hdate hrule hpast =>
    rw [prepare_of_past htitle hdate hrule hpast, next_once_of_lt horizon hpast]
    rfl
  | pastRecurs htitle hdate hrule hrecurs hpast hfound hleast =>
    rw [prepare_of_past htitle hdate hrule hpast, next_eq_of_isLeast hrule hrecurs hfound hleast]
    rfl
  | pastFails htitle hdate hrule _ hpast hcause =>
    rw [prepare_of_past htitle hdate hrule hpast, hcause]

/-- Preparing a task changes at most its date, to one that is not past. -/
private theorem Prepares.exists_date {prepared : Task}
    (h : Prepares horizon task today (.ok prepared)) :
    ∃ date : Date, prepared = { task with date := date.text } ∧ today ≤ date := by
  cases h with
  | undated _ _ _ => exact ⟨today, rfl, le_rfl⟩
  | kept _ hdate _ hdue => exact ⟨_, by rw [← hdate], hdue⟩
  | pastOnce _ _ _ _ => exact ⟨today, rfl, le_rfl⟩
  | pastRecurs _ _ _ _ _ _ hleast => exact ⟨_, rfl, le_of_lt hleast.1.2⟩

/-- The preparation of a task ends in the way of its case and in no other, and a task that is
accepted changes at most in its date, which is then a date and not past. -/
theorem prepare_decided (horizon : Horizon) (task : Task) (today : Date) :
    (∀ answer, task.prepare horizon today = answer ↔ Prepares horizon task today answer) ∧
    ∀ prepared, task.prepare horizon today = .ok prepared →
      ∃ date : Date, prepared = { task with date := date.text } ∧ today ≤ date := by
  refine ⟨fun answer => ⟨?_, Prepares.prepare_eq⟩, fun prepared h => ?_⟩
  · rintro rfl
    exact prepares_prepare horizon task today
  · have hprepares := prepares_prepare horizon task today
    rw [h] at hprepares
    exact hprepares.exists_date

/-- On February 29: a task due on this day is kept although its rule has no occurrence, a task of
the day before that does not recur is due today, and a malformed date counts before a malformed
rule. -/
theorem prepare_decided_leapDay :
    let today : Date := ⟨2024, 2, 29, by decide⟩
    let task (date rule : String) : Task := ⟨"7", date, "Rent", "", rule⟩
    let prepared : Task := task "20240229" "m 30 2"
    (prepared.prepare .standard today = .ok prepared ∧
        ∃ date : Date, prepared = { prepared with date := date.text } ∧ today ≤ date) ∧
      Prepares .standard (task "20240228" "") today (.ok (task "20240229" "")) ∧
      Prepares .standard (task "20240230" "x") today
        (.error (.malformedDate .due (.calendar "20240230"))) := by
  intro today task prepared
  have hkept : prepared.prepare .standard today = .ok prepared := by decide
  have honce : (task "20240228" "").prepare .standard today = .ok (task "20240229" "") := by decide
  have hmalformed : (task "20240230" "x").prepare .standard today =
      .error (.malformedDate .due (.calendar "20240230")) := by decide
  exact ⟨⟨hkept, (prepare_decided .standard prepared today).2 prepared hkept⟩,
    ((prepare_decided .standard (task "20240228" "") today).1 _).1 honce,
    ((prepare_decided .standard (task "20240230" "x") today).1 _).1 hmalformed⟩

end Agenda.Task
