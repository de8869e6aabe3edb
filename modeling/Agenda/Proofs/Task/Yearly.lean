import Agenda.Proofs.Task.Run

/-!
# Yearly tasks from one year to the next

A task has one date only: when it comes back, the new day takes the place of the old one, and the
rule is counted from there the next time. A yearly task stays on its day of the year that way, with
one exception. A task of February 29 comes back on the 28th in a common year, and from then on it is
a task of the 28th, in leap years as well.

- `Task.Lapsed`: some call has brought the task back in a common year.
- `Task.run_yearly`: on which day of the year a yearly task comes back at any call of a run.
- `Task.not_forall_run_inYear`: it need not be the day of the year on which it began.
-/

namespace Agenda.Task

variable {task : Task} {horizon : Horizon} {due date : Date}

/-- The call brings the task back on the date. -/
def Call.BringsBack (call : Call) (date : Date) : Prop :=
  ∃ next, call.answer = .ok (.rescheduled next) ∧ Date.ofText next.date = .ok date

/-- One of the calls brings the task back in a common year. -/
def Lapsed (calls : List Call) : Prop :=
  ∃ call ∈ calls, ∃ date, call.BringsBack date ∧ isLeap date.year = false

theorem lapsed_cons {call : Call} {calls : List Call} :
    Lapsed (call :: calls) ↔
      (∃ date, call.BringsBack date ∧ isLeap date.year = false) ∨ Lapsed calls := by
  simp [Lapsed]

theorem not_lapsed_nil : ¬ Lapsed [] :=
  fun ⟨_, hcall, _⟩ => List.not_mem_nil hcall

/-- A call that fails brings nothing back. -/
theorem Call.not_bringsBack {call : Call} {error : TaskError} (h : call.answer = .error error) :
    ¬ call.BringsBack date := by
  rintro ⟨next, hanswer, -⟩
  rw [h] at hanswer
  cases hanswer

/-- A call brings the task back on the day that its answer names and on no other. -/
theorem Call.bringsBack_iff {call : Call} {next : Task} (h : call.answer = .ok (.rescheduled next))
    (hread : Date.ofText next.date = .ok due) : call.BringsBack date ↔ date = due := by
  constructor
  · rintro ⟨next', hanswer, hread'⟩
    rw [h] at hanswer
    cases hanswer
    rw [hread] at hread'
    exact (Except.ok.inj hread').symm
  · rintro rfl
    exact ⟨next, h, hread⟩

/-! ## One call -/

/-- A yearly task that is done comes back on an anniversary of its own day, unless the calendar
ends before the next one. -/
theorem complete_yearly (horizon : Horizon) (today : Date)
    (hrule : Rule.ofText task.rule = .ok .yearly) (hdue : Date.ofText task.date = .ok due) :
    task.complete horizon today = .error (.rule (.search .pastLastDate)) ∨
      ∃ date, task.complete horizon today = .ok (.rescheduled { task with date := date.text }) ∧
        due.Anniversary date := by
  rw [complete_of_readable hrule hdue rfl]
  have hanswer := Rule.next_answer (Rule.inRange_of_ofText hrule) horizon due (max today due)
  generalize Rule.next .yearly horizon due (max today due) = answer at hanswer ⊢
  cases hanswer with
  | found hleast =>
    obtain ⟨⟨-, hanniversary⟩, -⟩ := hleast.1
    exact Or.inr ⟨_, rfl, hanniversary⟩
  | nothingLeft hrule _ => cases hrule
  | pastLastDate _ _ => exact Or.inl rfl
  | exhausted hrule _ _ => cases hrule

/-! ## Runs -/

/-- The day on which a yearly task that is due on the given day comes back after the given calls. -/
structure Recurs (due : Date) (earlier : List Call) (date : Date) : Prop where
  /-- It is an anniversary, unless it was a February 29 that has lapsed. -/
  anniversary (h : ¬ (due.IsLeapDay ∧ Lapsed earlier)) : due.Anniversary date
  /-- A February 29 that has lapsed is a February 28. -/
  lapsed (hdue : due.IsLeapDay) (h : Lapsed earlier) : date.month = 2 ∧ date.day = 28

/-- A call that brings nothing back does not change when the task comes back. -/
private theorem Recurs.cons_of_not_bringsBack {call : Call} {earlier : List Call}
    (hcall : ∀ date, ¬ call.BringsBack date) (h : Recurs due earlier date) :
    Recurs due (call :: earlier) date := by
  have hlapsed : Lapsed (call :: earlier) ↔ Lapsed earlier := by
    rw [lapsed_cons, or_iff_right]
    rintro ⟨other, hother, -⟩
    exact hcall other hother
  refine ⟨fun hnot => h.anniversary ?_, fun hdue hlapsed' => h.lapsed hdue (hlapsed.1 hlapsed')⟩
  rwa [hlapsed] at hnot

/-- A call that brings the task back on an anniversary of its day is followed by calls that bring it
back as if it had not come in between, apart from a February 29 that lapses with it. -/
private theorem Recurs.cons_of_bringsBack {call : Call} {earlier : List Call} {next : Date}
    (hcall : ∀ date, call.BringsBack date ↔ date = next) (hnext : due.Anniversary next)
    (h : Recurs next earlier date) : Recurs due (call :: earlier) date := by
  have hlapsed : Lapsed (call :: earlier) ↔ isLeap next.year = false ∨ Lapsed earlier := by
    simp only [lapsed_cons, hcall, exists_eq_left]
  by_cases hdue : due.IsLeapDay
  · have hday := (Date.anniversary_iff_of_isLeapDay hdue).1 hnext
    cases hleap : isLeap next.year with
    | true =>
      -- The task came back on a February 29, so nothing has changed.
      rw [hleap, if_pos rfl] at hday
      have hsame : next.month = due.month ∧ next.day = due.day :=
        ⟨hday.1.trans hdue.1.symm, hday.2.trans hdue.2.symm⟩
      rw [hleap, or_iff_right Bool.noConfusion] at hlapsed
      refine ⟨fun hnot => ?_, fun _ hlapsed' => h.lapsed hday (hlapsed.1 hlapsed')⟩
      rw [hlapsed] at hnot
      exact (Date.anniversary_congr hsame date).1 (h.anniversary fun h => hnot ⟨hdue, h.2⟩)
    | false =>
      -- The task came back on a February 28, where it stays from now on.
      rw [hleap, if_neg Bool.false_ne_true] at hday
      have hnot : ¬ next.IsLeapDay := fun h => by
        have := h.2
        omega
      have hstays := (Date.anniversary_iff_of_not_isLeapDay hnot).1
        (h.anniversary fun h => hnot h.1)
      refine ⟨fun hnot => absurd ⟨hdue, hlapsed.2 (Or.inl hleap)⟩ hnot, fun _ _ => ?_⟩
      rw [hstays.1, hstays.2]
      exact hday
  · -- Any other day of the year is kept.
    have hsame := (Date.anniversary_iff_of_not_isLeapDay hdue).1 hnext
    have hnot : ¬ next.IsLeapDay := fun h => hdue ⟨hsame.1.symm.trans h.1, hsame.2.symm.trans h.2⟩
    refine ⟨fun _ => ?_, fun h => absurd h hdue⟩
    exact (hnext.anniversary_iff hdue date).1 (h.anniversary fun h => hnot h.1)

/-- Every call of a run brings a yearly task back, on the day of the year that its first day and the
calls before say, unless the calendar ends. -/
theorem run_recurs (hrule : Rule.ofText task.rule = .ok .yearly)
    (hdue : Date.ofText task.date = .ok due) {todays : List Date} {earlier later : List Call}
    {call : Call} (hrun : task.run horizon todays = earlier ++ call :: later) :
    call.answer = .error (.rule (.search .pastLastDate)) ∨
      ∃ next date, call.answer = .ok (.rescheduled next) ∧ Date.ofText next.date = .ok date ∧
        Recurs due earlier date := by
  -- On the calls before, for a run that begins with any task on any day.
  induction earlier generalizing task due todays with
  | nil =>
    cases todays with
    | nil => cases hrun
    | cons today rest =>
      obtain ⟨rfl, -⟩ := List.cons.inj hrun
      refine (complete_yearly horizon today hrule hdue).imp_right ?_
      rintro ⟨date, hanswer, hanniversary⟩
      exact ⟨_, date, hanswer, date.ofText_text, fun _ => hanniversary,
        fun _ h => absurd h not_lapsed_nil⟩
  | cons first earlier ih =>
    cases todays with
    | nil => cases hrun
    | cons today rest =>
      obtain ⟨rfl, hrest⟩ := List.cons.inj hrun
      rcases complete_yearly horizon today hrule hdue with
        hanswer | ⟨back, hanswer, hanniversary⟩
      · -- The call failed, so the same task is done again.
        rw [hanswer] at hrest
        refine (ih hrule hdue hrest).imp_right ?_
        rintro ⟨next, date, hnext, hread, hrecurs⟩
        exact ⟨next, date, hnext, hread,
          hrecurs.cons_of_not_bringsBack fun _ => Call.not_bringsBack hanswer⟩
      · -- The task that came back is done next.
        rw [hanswer] at hrest
        have hrule' : Rule.ofText ({ task with date := back.text } : Task).rule = .ok .yearly :=
          hrule
        refine (ih hrule' back.ofText_text hrest).imp_right ?_
        rintro ⟨next, date, hnext, hread, hrecurs⟩
        exact ⟨next, date, hnext, hread, hrecurs.cons_of_bringsBack
          (fun _ => Call.bringsBack_iff hanswer back.ofText_text) hanniversary⟩

/-- A yearly task is done on any days, in any order. Every time it comes back on the day of the year
on which it was first due, where February 28 stands for February 29 in a common year. Only a task
of February 29 that has come back in a common year comes back on February 28 ever after. -/
theorem run_yearly {task : Task} {origin : Date} (hrule : Rule.ofText task.rule = .ok .yearly)
    (horigin : Date.ofText task.date = .ok origin) {horizon : Horizon} {todays : List Date}
    {earlier later : List Call} {call : Call}
    (hrun : task.run horizon todays = earlier ++ call :: later) :
    call.answer = .error (.rule (.search .pastLastDate)) ∨
      ∃ next date, call.answer = .ok (.rescheduled next) ∧ Date.ofText next.date = .ok date ∧
        (¬ (origin.IsLeapDay ∧ Lapsed earlier ∧ isLeap date.year = true) →
          origin.inYear? date.year = some date) ∧
        (origin.IsLeapDay → Lapsed earlier → date.month = 2 ∧ date.day = 28) ∧
        (origin.IsLeapDay → ¬ Lapsed earlier → isLeap date.year = true → date.IsLeapDay) := by
  refine (run_recurs hrule horigin hrun).imp_right ?_
  rintro ⟨next, date, hanswer, hread, hrecurs⟩
  refine ⟨next, date, hanswer, hread, fun hnot => ?_, hrecurs.lapsed, fun hleap hnot hyear => ?_⟩
  · refine Date.inYear?_eq_some_iff.2 ⟨rfl, ?_⟩
    by_cases hlapsed : origin.IsLeapDay ∧ Lapsed earlier
    · -- February 28 is the anniversary in a common year all the same.
      obtain ⟨hleap, hlapsed⟩ := hlapsed
      have hcommon : isLeap date.year = false :=
        Bool.eq_false_iff.2 fun hyear => hnot ⟨hleap, hlapsed, hyear⟩
      rw [Date.anniversary_iff_of_isLeapDay hleap, hcommon]
      exact hrecurs.lapsed hleap hlapsed
    · exact hrecurs.anniversary hlapsed
  · have hday := (Date.anniversary_iff_of_isLeapDay hleap).1 (hrecurs.anniversary fun h => hnot h.2)
    rw [hyear, if_pos rfl] at hday
    exact hday

/-- A task of February 29 comes back on it in the leap year 2028. After it came back in the common
year 2029, it comes back on February 28 of the leap year 2032. -/
theorem run_yearly_leapDay :
    let task : Task := ⟨"7", "20240229", "Birthday", "", "y"⟩
    let due (text : String) : Task := ⟨"7", text, "Birthday", "", "y"⟩
    let earlier : List Call :=
      [⟨task, ⟨2027, 3, 1, by decide⟩, .ok (.rescheduled (due "20280229"))⟩,
        ⟨due "20280229", ⟨2028, 2, 29, by decide⟩, .ok (.rescheduled (due "20290228"))⟩]
    let call : Call :=
      ⟨due "20290228", ⟨2031, 5, 1, by decide⟩, .ok (.rescheduled (due "20320228"))⟩
    Rule.ofText task.rule = .ok .yearly ∧
      Date.ofText task.date = .ok ⟨2024, 2, 29, by decide⟩ ∧
      task.run .standard [⟨2027, 3, 1, by decide⟩, ⟨2028, 2, 29, by decide⟩,
        ⟨2031, 5, 1, by decide⟩] = earlier ++ [call] ∧
      Lapsed earlier ∧
      ∃ date, Date.ofText "20320228" = .ok date ∧ date.month = 2 ∧ date.day = 28 := by
  intro task due earlier call
  have hrule : Rule.ofText task.rule = .ok .yearly := by decide
  have hdate : Date.ofText task.date = .ok ⟨2024, 2, 29, by decide⟩ := by decide
  have hfirst : task.complete .standard ⟨2027, 3, 1, by decide⟩ =
      .ok (.rescheduled (due "20280229")) := by decide
  have hsecond : (due "20280229").complete .standard ⟨2028, 2, 29, by decide⟩ =
      .ok (.rescheduled (due "20290228")) := by decide
  have hthird : (due "20290228").complete .standard ⟨2031, 5, 1, by decide⟩ =
      .ok (.rescheduled (due "20320228")) := by decide
  have hrun : task.run .standard [⟨2027, 3, 1, by decide⟩, ⟨2028, 2, 29, by decide⟩,
      ⟨2031, 5, 1, by decide⟩] = earlier ++ [call] := by
    simp only [run, following, hfirst, hsecond, hthird]
    rfl
  have hlapsed : Lapsed earlier :=
    ⟨_, List.mem_cons_of_mem _ List.mem_cons_self, ⟨2029, 2, 28, by decide⟩,
      ⟨_, rfl, by decide⟩, by decide⟩
  refine ⟨hrule, hdate, hrun, hlapsed, ?_⟩
  rcases run_yearly hrule hdate hrun with hfailed | ⟨next, date, hanswer, hread, -, hday, -⟩
  · cases hfailed
  · cases hanswer
    exact ⟨date, hread, hday (by decide) hlapsed⟩

/-- A yearly task need not come back on the day of the year on which it was first due. Done on
February 29 and again in 2027, it comes back on February 28 of the leap year 2028. -/
theorem not_forall_run_inYear :
    ¬ ∀ (task : Task) (origin : Date) (horizon : Horizon) (todays : List Date),
      Rule.ofText task.rule = .ok .yearly → Date.ofText task.date = .ok origin →
        ∀ call ∈ task.run horizon todays, ∀ next, call.answer = .ok (.rescheduled next) →
          ∃ date, Date.ofText next.date = .ok date ∧ origin.inYear? date.year = some date := by
  intro h
  let leapDay : Date := ⟨2024, 2, 29, by decide⟩
  let due (text : String) : Task := ⟨"7", text, "Birthday", "", "y"⟩
  have hfirst : (due "20240229").complete .standard leapDay =
      .ok (.rescheduled (due "20250228")) := by decide
  have hsecond : (due "20250228").complete .standard ⟨2027, 3, 1, by decide⟩ =
      .ok (.rescheduled (due "20280228")) := by decide
  have hcall : ⟨due "20250228", ⟨2027, 3, 1, by decide⟩, .ok (.rescheduled (due "20280228"))⟩ ∈
      (due "20240229").run .standard [leapDay, ⟨2027, 3, 1, by decide⟩] := by
    simp only [run, following, hfirst, hsecond]
    exact List.mem_cons_of_mem _ List.mem_cons_self
  obtain ⟨date, hread, hyear⟩ :=
    h (due "20240229") leapDay .standard _ (by decide) (by decide) _ hcall _ rfl
  have hdate : Date.ofText "20280228" = .ok ⟨2028, 2, 28, by decide⟩ := by decide
  rw [hdate] at hread
  cases hread
  exact absurd hyear (by decide)

end Agenda.Task
