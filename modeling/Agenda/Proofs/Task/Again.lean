import Agenda.Proofs.Occurrence.LaterReference
import Agenda.Proofs.Occurrence.MovingAnchor
import Agenda.Proofs.Task.Outcome
import Agenda.Proofs.Task.Preparation

/-!
# Preparing a task again

A task that was prepared and waits is prepared again on a later day. It ends as if it had not been
prepared before: an occurrence that still lies ahead is also the next one counted from the old day,
and when it has passed, the rule falls on the same days after it. Only a task that is due on the
later day itself stays there, although it would have been brought forward from a day before it.

- `Task.broughtForward_later`: the day to which a task is brought forward in two steps.
- `Task.prepare_again`: a task that is prepared twice, with its failures.
-/

namespace Agenda.Task

variable {horizon : Horizon} {task prepared : Task} {today later given due : Date} {rule : Rule}

/-- The task comes back every year and is due on a February 29. -/
def IsYearlyLeapDay (task : Task) : Prop :=
  Rule.Named task.rule .yearly ∧ ∃ due : Date, task.date = due.text ∧ due.IsLeapDay

/-! ## One day in two steps -/

/-- A past day is brought forward as the search says. -/
private theorem broughtForward_of_lt (horizon : Horizon) (rule : Rule) (h : due < today) :
    broughtForward horizon rule due today =
      (·.getD today) <$> nextOccurrence horizon rule due today :=
  if_pos h

/-- A day that is not past is kept. -/
private theorem broughtForward_of_le (horizon : Horizon) (rule : Rule) (h : today ≤ due) :
    broughtForward horizon rule due today = .ok due :=
  if_neg (not_lt.2 h)

/-- A past day of a task that does not recur becomes today. -/
private theorem broughtForward_once (horizon : Horizon) (h : due ≤ today) :
    broughtForward horizon .once due today = .ok today := by
  rcases lt_or_eq_of_le h with hlt | rfl
  · rw [broughtForward_of_lt horizon .once hlt, nextOccurrence, next_once_of_lt horizon hlt]
    rfl
  · exact broughtForward_of_le horizon .once le_rfl

/-- A day that was brought forward to an occurrence is brought forward from there as from where it
was before. -/
private theorem broughtForward_found (hrange : rule.InRange)
    (hleap : rule = .yearly → ¬ given.IsLeapDay) (hgiven : given < today) (hle : today ≤ later)
    (hnext : rule.next horizon given today = .ok (some due)) (hne : due ≠ later) :
    broughtForward horizon rule due later = broughtForward horizon rule given later := by
  have hpast : given < later := hgiven.trans_le hle
  rw [broughtForward_of_lt horizon rule hpast, nextOccurrence]
  rcases lt_or_gt_of_ne hne with hlt | hgt
  · -- The occurrence has passed, and counted from it the later ones are the same.
    obtain ⟨hoccurs, -⟩ := Rule.mem_occurrencesAfter_of_next hrange hnext
    rw [broughtForward_of_lt horizon rule hlt, nextOccurrence,
      Rule.next_reanchor hrange hoccurs (le_of_lt hlt) hleap]
  · -- The occurrence lies ahead, so it is still the next one.
    rw [broughtForward_of_le horizon rule (le_of_lt hgt), Rule.next_eq_of_lt hrange hle hnext hgt]
    rfl

/-- A day that was brought forward is kept if it has come. Otherwise it is brought forward as if it
had not been before. -/
theorem broughtForward_later (hrange : rule.InRange)
    (hleap : rule = .yearly → ¬ given.IsLeapDay) (hle : today ≤ later)
    (h : broughtForward horizon rule given today = .ok due) :
    broughtForward horizon rule due later =
      if due = later then .ok due else broughtForward horizon rule given later := by
  split
  next heq => exact broughtForward_of_le horizon rule (ge_of_eq heq)
  next hne =>
    rcases le_or_gt today given with hkept | hpast
    · -- The day was not past and has not been changed.
      rw [broughtForward_of_le horizon rule hkept] at h
      cases h
      rfl
    · rw [broughtForward_of_lt horizon rule hpast, nextOccurrence] at h
      have hanswer := Rule.next_answer hrange horizon given today
      generalize hnext : rule.next horizon given today = answer at h hanswer
      cases hanswer with
      | found _ =>
        cases h
        exact broughtForward_found hrange hleap hpast hle hnext hne
      | nothingLeft hrule _ =>
        obtain rfl : today = due := Except.ok.inj h
        subst hrule
        rw [broughtForward_once horizon hle,
          broughtForward_once horizon (le_of_lt (hpast.trans_le hle))]
      | pastLastDate _ _ => cases h
      | exhausted _ _ _ => cases h

/-! ## Tasks -/

/-- A task whose fields can be read is prepared by bringing its day forward. -/
private theorem prepare_of_given (htitle : Text.isBlank task.title.toList = false)
    (hgiven : task.givenDue later = .ok given) (hrule : Rule.ofText task.rule = .ok rule) :
    task.prepare horizon later =
      broughtForward horizon rule given later >>= fun due => .ok { task with date := due.text } := by
  rw [prepare_of_title htitle, hgiven, readRule_eq_ok_iff.2 hrule]
  rfl

/-- A dated task that was prepared is prepared on a later day as if it had not been prepared before,
unless it is due on that day. -/
private theorem prepare_later (hdate : task.date ≠ "") (hleap : ¬ task.IsYearlyLeapDay)
    (hle : today ≤ later) (hprepared : task.prepare horizon today = .ok prepared) :
    prepared.prepare horizon later =
      if prepared.date = later.text then .ok prepared else task.prepare horizon later := by
  obtain ⟨htitle, given, rule, due, hgiven, hrule, hdue, rfl⟩ := prepare_eq_ok_iff.1 hprepared
  have hread : Date.ofText task.date = .ok given := by
    rwa [givenDue_eq_ok_iff, if_neg (mt String.isEmpty_iff.1 hdate)] at hgiven
  have hleap' : rule = .yearly → ¬ given.IsLeapDay := by
    rintro rfl hday
    exact hleap ⟨Rule.ofText_eq_ok_iff.1 hrule, given, Date.ofText_eq_ok_iff.1 hread, hday⟩
  have hforward := broughtForward_later (Rule.inRange_of_ofText hrule) hleap' hle hdue
  have hsame : due.text = later.text ↔ due = later := ⟨Date.text_injective, congrArg Date.text⟩
  have hagain : ({ task with date := due.text } : Task).prepare horizon later =
      broughtForward horizon rule due later >>= fun date =>
        .ok { task with date := date.text } :=
    prepare_of_given htitle (givenDue_of_ofText due.ofText_text) hrule
  rw [hagain, hforward, prepare_of_given htitle (givenDue_of_ofText hread) hrule]
  simp only [hsame]
  split <;> rfl

/-- A task that has a date and was prepared is prepared again on the same or on a later day. It stays
as it is if it is due on that day, and otherwise ends as if it had not been prepared before, also if
it fails. Only a yearly task of February 29 need not. Prepared again on the same day, every task stays
as it is. -/
theorem prepare_again (horizon : Horizon) :
    (∀ (task prepared : Task) (today later : Date), task.date ≠ "" → ¬ task.IsYearlyLeapDay →
      today ≤ later → task.prepare horizon today = .ok prepared →
      prepared.prepare horizon later =
        if prepared.date = later.text then .ok prepared else task.prepare horizon later) ∧
    ∀ (task prepared : Task) (today : Date), task.prepare horizon today = .ok prepared →
      prepared.prepare horizon today = .ok prepared :=
  ⟨fun _ _ _ _ hdate hleap hle hprepared => prepare_later hdate hleap hle hprepared,
    fun _ _ _ hprepared => prepare_prepared hprepared⟩

/-- With a horizon of one year, a task of February 29 is prepared in 2023 and again on that day, where
it stays. A day later no February 29 is near enough, whether or not the task was prepared before. -/
theorem prepare_again_leapDay :
    let task (date : String) : Task := ⟨"7", date, "Birthday", "", "m 29 2"⟩
    let today : Date := ⟨2023, 3, 5, by decide⟩
    let leapDay : Date := ⟨2024, 2, 29, by decide⟩
    let nextDay : Date := ⟨2024, 3, 1, by decide⟩
    let rule : Rule := .monthly (.ofList [29]) (.ofList [2])
    let exhausted : TaskError := .rule (.search (.exhausted rule ⟨2024, 3, 2, by decide⟩ 1))
    (task "20200229").date ≠ "" ∧ ¬ (task "20200229").IsYearlyLeapDay ∧ today ≤ leapDay ∧
      today ≤ nextDay ∧ (task "20200229").prepare ⟨1⟩ today = .ok (task "20240229") ∧
      (task "20240229").prepare ⟨1⟩ today = .ok (task "20240229") ∧
      (task "20240229").prepare ⟨1⟩ leapDay = .ok (task "20240229") ∧
      (task "20200229").prepare ⟨1⟩ nextDay = .error exhausted ∧
      (task "20240229").prepare ⟨1⟩ nextDay = .error exhausted := by
  intro task today leapDay nextDay rule exhausted
  have hdate : (task "20200229").date ≠ "" := by decide
  have hleap : ¬ (task "20200229").IsYearlyLeapDay := by
    rintro ⟨hyearly, -⟩
    have hread : Rule.ofText "m 29 2" ≠ .ok .yearly := by decide
    exact hread (Rule.ofText_eq_ok_iff.2 hyearly)
  have hday : today ≤ leapDay := by decide
  have hnextDay : today ≤ nextDay := by decide
  have hprepared : (task "20200229").prepare ⟨1⟩ today = .ok (task "20240229") := by decide
  have hfails : (task "20200229").prepare ⟨1⟩ nextDay = .error exhausted := by decide
  obtain ⟨hagain, hsame⟩ := prepare_again ⟨1⟩
  have hstays := hagain _ _ today leapDay hdate hleap hday hprepared
  have hfails' := hagain _ _ today nextDay hdate hleap hnextDay hprepared
  rw [if_pos (by decide)] at hstays
  rw [if_neg (by decide), hfails] at hfails'
  exact ⟨hdate, hleap, hday, hnextDay, hprepared, hsame _ _ today hprepared, hstays, hfails,
    hfails'⟩

-- A yearly task of February 29 that is prepared in a common year is a task of the 28th.
example :
    let task (date : String) : Task := ⟨"7", date, "Birthday", "", "y"⟩
    (task "20240229").prepare .standard ⟨2025, 1, 1, by decide⟩ = .ok (task "20250228") ∧
      (task "20250228").prepare .standard ⟨2027, 3, 1, by decide⟩ = .ok (task "20280228") ∧
      (task "20240229").prepare .standard ⟨2027, 3, 1, by decide⟩ = .ok (task "20280229") := by
  decide

end Agenda.Task
