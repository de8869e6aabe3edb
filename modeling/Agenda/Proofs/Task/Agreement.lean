import Agenda.Proofs.Occurrence.Next
import Agenda.Proofs.Rule.Grammar
import Agenda.Proofs.Task.Schedule

/-!
# Agreement between the ways to a next date

The next date of a rule can be asked for as a date or as a text, and it comes out when a task is
prepared or done. The four ways read what they are given in different orders and word their failures
differently. They answer alike all the same.

- `Task.SameNext`: when a next date and the text of a next date are alike.
- `Task.SameDay`: when a next date, a prepared task and a done task are alike.
- `Task.next_dates_agree`: they are, the former for all texts and the latter for every past task that
  recurs.
-/

namespace Agenda.Task

variable {horizon : Horizon} {today : Date}

/-! ## Dates and texts -/

/-- Both texts are dates. -/
def BothDates (date now : String) : Prop :=
  (∃ due, Date.ofText date = .ok due) ∧ ∃ reference, Date.ofText now = .ok reference

/-- The next date and the text of the next date are of one search. The text is empty exactly if
there is no date. Failures are the same if both given texts are dates; otherwise both fail, but
perhaps for different reasons. -/
inductive SameNext (date now : String) :
    Except TaskError (Option Date) → Except RuleError String → Prop
  /-- A date and its text. -/
  | found {next : Date} (htext : next.text ≠ "") :
      SameNext date now (.ok (some next)) (.ok next.text)
  /-- No date and an empty text. -/
  | nothingLeft : SameNext date now (.ok none) (.ok "")
  /-- The same failure. -/
  | failed {cause : RuleError} : SameNext date now (.error (.rule cause)) (.error cause)
  /-- Two failures, because a date is malformed. -/
  | malformed {error : TaskError} {cause : RuleError} (h : ¬ BothDates date now) :
      SameNext date now (.error error) (.error cause)

/-- What both ways ask once the dates are read. -/
private def searched (horizon : Horizon) (rule : String) (due reference : Date) :
    Except RuleError (Option Date) :=
  Rule.read rule >>= fun rule => (rule.next horizon due reference).mapError .search

/-- With two dates, the next date fails only as the rule or the search does. -/
private theorem nextDate_of_readable {now date rule : String} {due reference : Date}
    (hnow : Date.ofText now = .ok reference) (hdue : Date.ofText date = .ok due) :
    nextDate horizon (some now) date rule today =
      (searched horizon rule due reference).mapError .rule := by
  have hread : readDate .now now = .ok reference := mapError_eq_ok_iff.2 hnow
  simp only [nextDate, Date.isEmpty_eq_false_of_ofText hnow, Bool.false_eq_true, if_false, hread,
    readDue_eq_ok_iff.2 hdue]
  -- Either the rule cannot be read, or both sides are the search with its error wrapped twice.
  show (readRule rule >>= fun rule => nextOccurrence horizon rule due reference) = _
  simp only [searched, readRule, nextOccurrence]
  cases Rule.read rule with
  | error cause => rfl
  | ok rule =>
    show (rule.next horizon due reference).mapError _ =
      ((rule.next horizon due reference).mapError _).mapError _
    cases rule.next horizon due reference <;> rfl

/-- So does its text, which is that of the same search. -/
private theorem nextText_of_readable {now date rule : String} {due reference : Date}
    (hnow : Date.ofText now = .ok reference) (hdue : Date.ofText date = .ok due) :
    Rule.nextText horizon rule date now =
      (fun next => (next.map Date.text).getD "") <$> searched horizon rule due reference := by
  simp only [Rule.nextText, searched, hnow, hdue]
  cases Rule.read rule with
  | error cause => rfl
  | ok rule =>
    show ((rule.next horizon due reference).mapError _ >>= _) =
      _ <$> (rule.next horizon due reference).mapError _
    cases rule.next horizon due reference <;> rfl

/-- A next date is found only if both given dates are readable. -/
private theorem bothDates_of_nextDate {now date rule : String} {next : Option Date}
    (hnow : now ≠ "") (h : nextDate horizon (some now) date rule today = .ok next) :
    BothDates date now := by
  have hempty : now.isEmpty = false := Bool.eq_false_iff.2 (mt String.isEmpty_iff.1 hnow)
  simp only [nextDate, hempty, Bool.false_eq_true, if_false] at h
  obtain ⟨reference, hreference, h⟩ := bind_eq_ok_iff.1 h
  obtain ⟨due, hdue, -⟩ := bind_eq_ok_iff.1 h
  exact ⟨⟨due, readDue_eq_ok_iff.1 hdue⟩, reference, mapError_eq_ok_iff.1 hreference⟩

private theorem bothDates_of_nextText {now date rule text : String}
    (h : Rule.nextText horizon rule date now = .ok text) : BothDates date now := by
  simp only [Rule.nextText] at h
  obtain ⟨_, -, h⟩ := bind_eq_ok_iff.1 h
  obtain ⟨due, hdue, h⟩ := bind_eq_ok_iff.1 h
  obtain ⟨reference, hreference, -⟩ := bind_eq_ok_iff.1 h
  exact ⟨⟨due, mapError_eq_ok_iff.1 hdue⟩, reference, mapError_eq_ok_iff.1 hreference⟩

theorem nextDate_sameNext {now : String} (hnow : now ≠ "") (date rule : String) :
    SameNext date now (nextDate horizon (some now) date rule today)
      (Rule.nextText horizon rule date now) := by
  by_cases hdates : BothDates date now
  · obtain ⟨⟨due, hdue⟩, reference, hreference⟩ := hdates
    rw [nextDate_of_readable hreference hdue, nextText_of_readable hreference hdue]
    cases searched horizon rule due reference with
    | error cause => exact .failed
    | ok next =>
      cases next with
      | none => exact .nothingLeft
      | some next => exact .found next.text_ne_empty
  · -- A date is malformed, so neither of the two can succeed.
    cases hdate : nextDate horizon (some now) date rule today with
    | ok next => exact absurd (bothDates_of_nextDate hnow hdate) hdates
    | error error =>
      cases htext : Rule.nextText horizon rule date now with
      | ok text => exact absurd (bothDates_of_nextText htext) hdates
      | error cause => exact .malformed hdates

/-! ## Tasks -/

/-- The next date of a task, the prepared task and the done task: all of them name the same day, or
all fail because of the same search. -/
inductive SameDay (task : Task) :
    Except TaskError (Option Date) → Except TaskError Task → Except TaskError Completion → Prop
  /-- The same day. -/
  | found {date : Date} : SameDay task (.ok (some date)) (.ok { task with date := date.text })
      (.ok (.rescheduled { task with date := date.text }))
  /-- The same failure. -/
  | failed {cause : SearchError} : SameDay task (.error (.rule (.search cause)))
      (.error (.rule (.search cause))) (.error (.rule (.search cause)))

private theorem nextDate_none_of_readable {date text : String} {rule : Rule} {due : Date}
    (hrule : Rule.ofText text = .ok rule) (hdue : Date.ofText date = .ok due) :
    nextDate horizon none date text today = nextOccurrence horizon rule due today := by
  simp only [nextDate, readDue_eq_ok_iff.2 hdue, readRule_eq_ok_iff.2 hrule]
  rfl

theorem nextDate_sameDay {task : Task} {rule : Rule} {due : Date}
    (htitle : Text.isBlank task.title.toList = false)
    (hrecurs : Text.isBlank task.rule.toList = false) (hrule : Rule.ofText task.rule = .ok rule)
    (hdue : Date.ofText task.date = .ok due) (hpast : due < today) :
    SameDay task (nextDate horizon none task.date task.rule today) (task.prepare horizon today)
      (task.complete horizon today) := by
  have honce : rule ≠ .once := Rule.ne_once_of_ofText hrule hrecurs
  rw [nextDate_none_of_readable hrule hdue, prepare_of_readable htitle hrule hdue hpast,
    complete_of_readable hrule hdue (Rule.isOnce_eq_false_iff.2 honce),
    max_eq_left (le_of_lt hpast), nextOccurrence]
  -- All three are now the same search, which says that nothing is left only for a rule `once`.
  have hanswer := Rule.next_answer (Rule.inRange_of_ofText hrule) horizon due today
  generalize rule.next horizon due today = answer at hanswer ⊢
  cases hanswer with
  | found _ => exact .found
  | nothingLeft hrule _ => exact absurd hrule honce
  | pastLastDate _ _ => exact .failed
  | exhausted _ _ _ => exact .failed

/-- The ways to a next date agree. If the day to count as today is given, the next date and its text
are alike. A past task that recurs has the same next date whether it is asked for, prepared or done,
or has none for the same reason. -/
theorem next_dates_agree (horizon : Horizon) (today : Date) :
    (∀ now date rule : String, now ≠ "" →
      SameNext date now (nextDate horizon (some now) date rule today)
        (Rule.nextText horizon rule date now)) ∧
    ∀ (task : Task) (rule : Rule) (due : Date), Text.isBlank task.title.toList = false →
      Text.isBlank task.rule.toList = false → Rule.ofText task.rule = .ok rule →
      Date.ofText task.date = .ok due → due < today →
      SameDay task (nextDate horizon none task.date task.rule today)
        (task.prepare horizon today) (task.complete horizon today) :=
  ⟨fun _ date rule hnow => nextDate_sameNext hnow date rule,
    fun _ _ _ htitle hrecurs hrule hdue hpast =>
      nextDate_sameDay htitle hrecurs hrule hdue hpast⟩

/-- A task of January 31 that comes back on the last day of every month: its date is readable, so the
next one is the same as a text, and in May the three ways to it name the same day. -/
theorem next_dates_agree_monthEnd :
    let task : Task := ⟨"3", "20240131", "Rent", "", "m -1"⟩
    let due : Date := ⟨2024, 1, 31, by decide⟩
    let today : Date := ⟨2024, 5, 2, by decide⟩
    "20240229" ≠ "" ∧
      SameNext task.date "20240229"
        (nextDate .standard (some "20240229") task.date task.rule today)
        (Rule.nextText .standard task.rule task.date "20240229") ∧
      Text.isBlank task.title.toList = false ∧ Text.isBlank task.rule.toList = false ∧
      Rule.ofText task.rule = .ok (.monthly (.ofList [-1]) .empty) ∧
      Date.ofText task.date = .ok due ∧ due < today ∧
      SameDay task (nextDate .standard none task.date task.rule today)
        (task.prepare .standard today) (task.complete .standard today) := by
  intro task due today
  have hnow : "20240229" ≠ "" := by decide
  have htitle : Text.isBlank task.title.toList = false := by decide
  have hrecurs : Text.isBlank task.rule.toList = false := by decide
  have hrule : Rule.ofText task.rule = .ok (.monthly (.ofList [-1]) .empty) := by decide
  have hdue : Date.ofText task.date = .ok due := by decide
  have hpast : due < today := by decide
  obtain ⟨htext, hday⟩ := next_dates_agree .standard today
  exact ⟨hnow, htext _ task.date task.rule hnow, htitle, hrecurs, hrule, hdue, hpast,
    hday task _ due htitle hrecurs hrule hdue hpast⟩

end Agenda.Task
