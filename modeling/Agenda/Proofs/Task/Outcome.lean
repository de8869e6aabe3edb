import Agenda.Proofs.Occurrence.Next
import Agenda.Proofs.Rule.Grammar
import Agenda.Proofs.Task.Schedule

/-!
# Prepared and done tasks

What can be said of a task once it is prepared or done, without looking at the day on which it comes
back.

- `Task.complete_eq_ok`: a done task is removed if it has no rule, and otherwise comes back with
  another date.
- `Task.prepare_prepared`: a prepared task stays as it is when it is prepared again on that day.
-/

namespace Agenda.Task

variable {horizon : Horizon} {task : Task} {today : Date}

/-- A done task is removed if its rule is blank, and otherwise comes back with another date. -/
theorem complete_eq_ok {completion : Completion}
    (h : task.complete horizon today = .ok completion) :
    (completion = .removed ∧ Text.isBlank task.rule.toList = true) ∨
    ∃ next : Date, completion = .rescheduled { task with date := next.text } ∧
      Text.isBlank task.rule.toList = false := by
  -- `h` is kept as it is: in the second case it is read by `complete_of_readable`.
  have h' := h
  unfold complete at h'
  obtain ⟨rule, hrule, h'⟩ := bind_eq_ok_iff.1 h'
  obtain ⟨due, hdue, h'⟩ := bind_eq_ok_iff.1 h'
  rw [readRule_eq_ok_iff] at hrule
  rw [readDue_eq_ok_iff] at hdue
  cases honce : rule.isOnce with
  | true =>
    rw [honce] at h'
    have hrule' : rule = .once := by
      by_contra hne
      rw [Rule.isOnce_eq_false_iff.2 hne] at honce
      cases honce
    exact Or.inl ⟨(Except.ok.inj h').symm, (Rule.eq_once_iff_of_ofText hrule).1 hrule'⟩
  | false =>
    have hne : rule ≠ .once := Rule.isOnce_eq_false_iff.1 honce
    rw [complete_of_readable hrule hdue honce] at h
    -- The search for the next date says that nothing is left only for a rule `once`.
    have hanswer := Rule.next_answer (Rule.inRange_of_ofText hrule) horizon due (max today due)
    generalize rule.next horizon due (max today due) = answer at h hanswer
    cases hanswer with
    | nothingLeft honce _ => exact absurd honce hne
    | pastLastDate _ _ => cases h
    | exhausted _ _ _ => cases h
    | found _ =>
      refine Or.inr ⟨_, (Except.ok.inj h).symm, ?_⟩
      rw [← Bool.not_eq_true, ← Rule.eq_once_iff_of_ofText hrule]
      exact hne

/-- A task is brought forward to today or later. -/
theorem not_lt_of_broughtForward {rule : Rule} {given due : Date} (hrange : rule.InRange)
    (h : broughtForward horizon rule given today = .ok due) : ¬ due < today := by
  unfold broughtForward at h
  split at h
  next hpast =>
    have hanswer := Rule.next_answer hrange horizon given today
    unfold nextOccurrence at h
    generalize rule.next horizon given today = answer at h hanswer
    cases hanswer with
    | found hleast =>
      cases h
      exact not_lt_of_gt hleast.1.2
    | nothingLeft _ _ =>
      cases h
      exact lt_irrefl today
    | pastLastDate _ _ => cases h
    | exhausted _ _ _ => cases h
  next hpast =>
    cases h
    exact hpast

/-- A prepared task stays as it is when it is prepared again. -/
theorem prepare_prepared {prepared : Task} (h : task.prepare horizon today = .ok prepared) :
    prepared.prepare horizon today = .ok prepared := by
  obtain ⟨htitle, given, rule, due, hgiven, hrule, hdue, rfl⟩ := prepare_eq_ok_iff.1 h
  -- Only a day before today is brought forward, and the task has none such any more.
  have hkept : broughtForward horizon rule due today = .ok due :=
    if_neg (not_lt_of_broughtForward (Rule.inRange_of_ofText hrule) hdue)
  exact prepare_eq_ok_iff.2
    ⟨htitle, due, rule, due, givenDue_of_ofText due.ofText_text, hrule, hkept, rfl⟩

end Agenda.Task
