import Agenda.Proofs.Occurrence.Next
import Agenda.Proofs.Rule.Grammar
import Agenda.Proofs.Task.Schedule

/-!
# Runs of a task

A task that comes back is done again and again, on days in any order. Each time the day on which it
comes back is the one its rule is counted from the next time, so what the rule says of a day has to
be traced back to the day of the task that was prepared.

- `Task.run`: the calls of a run and what is answered to them.
- `Rule.Suits`: what the rule says of a day, seen from the first day of the run.
- `Task.Answer`: what may be answered to a call.
- `Task.run_answers`: nothing else is answered to any call of a run.
-/

namespace Agenda

/-! ## Days that suit a rule -/

namespace Rule

/-- The date suits the rule in a run that begins on the origin. Lists have to name it; it is some
number of intervals away from the origin; or it is the day of the origin in another year, where
February 28 may stand for February 29. -/
def Suits (origin date : Date) : Rule → Prop
  | once => date = origin
  | daily interval => (interval.toNat : Int) ∣ date.daysSince origin
  | yearly =>
    date.month = origin.month ∧
      (date.day = origin.day ∨ (origin.month = 2 ∧ origin.day = 29) ∧ date.day = 28)
  | weekly days => OnWeekday days date
  | monthly days months => OnMonthDay days months date

/-- An occurrence counted from a day that suits the rule suits it as well. -/
theorem Suits.of_occurs {rule : Rule} {origin due date : Date}
    (hdue : due = origin ∨ rule.Suits origin due) (h : rule.Occurs due date) :
    rule.Suits origin date := by
  cases rule with
  | once =>
    rcases hdue with rfl | hdue
    · exact h
    · exact Eq.trans h hdue
  | daily interval =>
    -- Both distances are multiples of the interval.
    have hsum : date.daysSince origin = date.daysSince due + due.daysSince origin := by
      unfold Date.daysSince
      omega
    obtain ⟨k, hk⟩ := h
    change (interval.toNat : Int) ∣ date.daysSince origin
    rw [hsum, hk]
    refine Int.dvd_add (Int.dvd_mul_left _ _) ?_
    rcases hdue with rfl | hdue
    · unfold Date.daysSince
      rw [Int.sub_self]
      exact Int.dvd_zero _
    · exact hdue
  | yearly =>
    obtain ⟨-, hmonth, hday⟩ := h
    rcases hdue with rfl | ⟨hmonth', hday'⟩
    · exact ⟨hmonth, hday.imp_right fun h => ⟨h.1, h.2.2⟩⟩
    · refine ⟨hmonth.trans hmonth', ?_⟩
      -- A day that was moved to the 28th stays there; otherwise it is still that of the origin.
      rcases hday with hday | ⟨⟨hfebruary, hleapDay⟩, -, hday⟩
      · rw [hday]
        exact hday'
      · rcases hday' with hday' | ⟨-, hday'⟩
        · exact Or.inr ⟨⟨hmonth' ▸ hfebruary, hday' ▸ hleapDay⟩, hday⟩
        · omega
  | weekly days => exact h.2
  | monthly days months => exact h.2

end Rule

namespace Task

/-! ## Runs -/

/-- A call in a run: the task that is done, the day, and what is answered. -/
structure Call where
  /-- The task that is done. -/
  task : Task
  /-- The day on which it is done. -/
  today : Date
  /-- What becomes of it. -/
  answer : Except TaskError Completion

/-- The task that is done next: the one that came back, or else the same again. -/
def following (task : Task) : Except TaskError Completion → Task
  | .ok (.rescheduled next) => next
  | _ => task

/-- The calls of a run that begins with a task and takes one call on each of the given days. -/
def run (horizon : Horizon) (task : Task) : List Date → List Call
  | [] => []
  | today :: rest =>
    let answer := task.complete horizon today
    ⟨task, today, answer⟩ :: (task.following answer).run horizon rest

/-- A run has one call on each of the days. -/
theorem map_today_run (horizon : Horizon) (task : Task) (todays : List Date) :
    (task.run horizon todays).map Call.today = todays := by
  induction todays generalizing task with
  | nil => rfl
  | cons today rest ih => exact congrArg (today :: ·) (ih _)

/-! ## Answers -/

/-- The task is the submitted one on a day of its run, either the first or one that suits the
rule. -/
structure OnCourse (submitted : Task) (rule : Rule) (origin due : Date) (task : Task) : Prop where
  /-- The task differs from the submitted one in its date only. -/
  task_eq : task = { submitted with date := due.text }
  /-- The day belongs to the run. -/
  suits : due = origin ∨ rule.Suits origin due

/-- The answers to a call when a task that recurs is done: it comes back unchanged on a later day
that suits the rule, or the search for that day fails. -/
inductive Answer (submitted : Task) (rule : Rule) (horizon : Horizon) (origin due today : Date) :
    Except TaskError Completion → Prop
  /-- The task comes back on a day after today and after its own day. -/
  | rescheduled {next : Date} (hread : Date.ofText next.text = .ok next) (hdue : due < next)
      (htoday : today < next) (hsuits : rule.Suits origin next) :
      Answer submitted rule horizon origin due today
        (.ok (.rescheduled { submitted with date := next.text }))
  /-- The calendar has no such day. -/
  | pastLastDate :
      Answer submitted rule horizon origin due today (.error (.rule (.search .pastLastDate)))
  /-- With a monthly rule, the horizon has no such day. -/
  | exhausted {start : Date} (hrule : rule.kind = .monthly) :
      Answer submitted rule horizon origin due today
        (.error (.rule (.search (.exhausted rule start horizon.years))))

variable {submitted task : Task} {rule : Rule} {horizon : Horizon} {origin due today : Date}

/-- What is answered when a task on its course is done. -/
theorem complete_answer (hrule : Rule.ofText submitted.rule = .ok rule)
    (hrecurs : rule ≠ .once) (h : OnCourse submitted rule origin due task) :
    Answer submitted rule horizon origin due today (task.complete horizon today) := by
  obtain ⟨htask, hsuits⟩ := h
  have hrule' : Rule.ofText task.rule = .ok rule := by rw [htask, hrule]
  have hdue : Date.ofText task.date = .ok due := by rw [htask, due.ofText_text]
  rw [complete_of_readable hrule' hdue (Rule.isOnce_eq_false_iff.2 hrecurs), htask]
  have hanswer := Rule.next_answer (Rule.inRange_of_ofText hrule) horizon due (max today due)
  generalize rule.next horizon due (max today due) = answer at hanswer ⊢
  cases hanswer with
  | found hleast =>
    obtain ⟨hoccurs, hafter⟩ := hleast.1
    exact .rescheduled (Date.ofText_text _) (max_lt_iff.1 hafter).2 (max_lt_iff.1 hafter).1
      (.of_occurs hsuits hoccurs)
  | nothingLeft honce _ => exact absurd honce hrecurs
  | pastLastDate _ _ => exact .pastLastDate
  | exhausted hmonthly _ _ => exact .exhausted (hmonthly ▸ rfl)

/-- A task stays on its course. -/
theorem OnCourse.following {answer : Except TaskError Completion}
    (h : OnCourse submitted rule origin due task)
    (hanswer : Answer submitted rule horizon origin due today answer) :
    ∃ due', OnCourse submitted rule origin due' (task.following answer) := by
  cases hanswer with
  | rescheduled _ _ _ hsuits => exact ⟨_, rfl, Or.inr hsuits⟩
  | pastLastDate => exact ⟨due, h⟩
  | exhausted _ => exact ⟨due, h⟩

/-- Every call of a run is about the task on its course, and is answered accordingly. -/
theorem run_answers (hrule : Rule.ofText submitted.rule = .ok rule) (hrecurs : rule ≠ .once)
    (h : OnCourse submitted rule origin due task) (todays : List Date) :
    ∀ call ∈ task.run horizon todays, ∃ due, OnCourse submitted rule origin due call.task ∧
      Answer submitted rule horizon origin due call.today call.answer := by
  -- The invariant is that the task is on its course; its day is another one at every call.
  induction todays generalizing task due with
  | nil => exact fun call hcall => absurd hcall List.not_mem_nil
  | cons today rest ih =>
    intro call hcall
    have hanswer : Answer submitted rule horizon origin due today (task.complete horizon today) :=
      complete_answer hrule hrecurs h
    rcases List.mem_cons.1 hcall with rfl | hcall
    · exact ⟨due, h, hanswer⟩
    · obtain ⟨due', h'⟩ := h.following hanswer
      exact ih h' call hcall

/-- A prepared task that recurs is done on any days, in any order. Every call is about the submitted
task on some day, and it either brings the task back, unchanged but for its date, on a later day
that suits the rule, or fails because there is no such day in the calendar or in the horizon. -/
theorem run_of_prepared {task prepared : Task} {horizon : Horizon} {today : Date}
    (hrecurs : Text.isBlank task.rule.toList = false)
    (hprepared : task.prepare horizon today = .ok prepared) (todays : List Date) :
    ∃ rule origin, Rule.ofText task.rule = .ok rule ∧ Date.ofText prepared.date = .ok origin ∧
      (prepared.run horizon todays).map Call.today = todays ∧
      ∀ call ∈ prepared.run horizon todays, ∃ due,
        Date.ofText call.task.date = .ok due ∧ call.task = { task with date := due.text } ∧
          Answer task rule horizon origin due call.today call.answer := by
  obtain ⟨-, _, rule, origin, -, hrule, -, rfl⟩ := prepare_eq_ok_iff.1 hprepared
  have honce : rule ≠ .once := by
    rw [Ne, Rule.eq_once_iff_of_ofText hrule, hrecurs]
    exact Bool.false_ne_true
  refine ⟨rule, origin, hrule, origin.ofText_text, map_today_run _ _ _, fun call hcall => ?_⟩
  have hcourse : OnCourse task rule origin origin { task with date := origin.text } :=
    ⟨rfl, Or.inl rfl⟩
  obtain ⟨due, ⟨htask, -⟩, hanswer⟩ := run_answers hrule honce hcourse todays call hcall
  refine ⟨due, ?_, htask, hanswer⟩
  rw [htask]
  exact due.ofText_text

/-- A task that comes back every third day is prepared after its day and done twice, the second time
on an earlier day than the first. -/
theorem run_of_prepared_daily :
    let task : Task := ⟨"7", "20240227", "Water the plants", "", "d 3"⟩
    let prepared : Task := ⟨"7", "20240301", "Water the plants", "", "d 3"⟩
    let todays : List Date := [⟨2024, 3, 10, by decide⟩, ⟨2024, 1, 1, by decide⟩]
    Text.isBlank task.rule.toList = false ∧
      task.prepare .standard ⟨2024, 2, 28, by decide⟩ = .ok prepared ∧
      ∃ rule origin, Rule.ofText task.rule = .ok rule ∧ Date.ofText prepared.date = .ok origin ∧
        ∀ call ∈ prepared.run .standard todays, ∃ due,
          Answer task rule .standard origin due call.today call.answer := by
  intro task prepared todays
  have hrecurs : Text.isBlank task.rule.toList = false := by decide
  have hprepared : task.prepare .standard ⟨2024, 2, 28, by decide⟩ = .ok prepared := by decide
  obtain ⟨rule, origin, hrule, horigin, -, hcalls⟩ := run_of_prepared hrecurs hprepared todays
  refine ⟨hrecurs, hprepared, rule, origin, hrule, horigin, fun call hcall => ?_⟩
  obtain ⟨due, -, -, hanswer⟩ := hcalls call hcall
  exact ⟨due, hanswer⟩

end Task

end Agenda
