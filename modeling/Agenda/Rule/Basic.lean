import Agenda.SortedSet

/-!
# Recurrence rules

A rule says on which days a task comes back. Its numbers are machine words, since a rule may be
put together without having been read from a text; `Rule.InRange` names the rules that a text can
express.
-/

namespace Agenda

/-- On which days a task comes back. -/
inductive Rule where
  /-- Only on the task's own day. -/
  | once
  /-- Every `interval` days. -/
  | daily (interval : UInt32)
  /-- On the same month and day of every year. -/
  | yearly
  /-- On the listed weekdays, 1 for Monday to 7 for Sunday. -/
  | weekly (days : SortedSet UInt32)
  /-- On the listed days of the listed months. A negative day counts from the month's end, `-1`
  being its last day; no listed month means every month. -/
  | monthly (days : SortedSet Int32) (months : SortedSet UInt32)
deriving DecidableEq

namespace Rule

/-- The five kinds of rules. -/
inductive Kind where
  | once
  | daily
  | yearly
  | weekly
  | monthly
deriving DecidableEq

/-- The name of a kind. -/
def Kind.name : Kind → String
  | once => "once"
  | daily => "daily"
  | yearly => "yearly"
  | weekly => "weekly"
  | monthly => "monthly"

/-- The kind of a rule. -/
def kind : Rule → Kind
  | once => .once
  | daily _ => .daily
  | yearly => .yearly
  | weekly _ => .weekly
  | monthly _ _ => .monthly

/-- Whether the rule brings nothing back. -/
def isOnce (rule : Rule) : Bool :=
  rule.kind = .once

/-- Every rule but `once` brings something back. -/
theorem isOnce_eq_false_iff {rule : Rule} : rule.isOnce = false ↔ rule ≠ once := by
  cases rule <;> simp [isOnce, kind]

/-- The interval of a daily rule: 1 to 400 days. -/
def IsInterval (n : Nat) : Prop := 1 ≤ n ∧ n ≤ 400

/-- The number of a weekday: 1 to 7. -/
def IsWeekday (n : Nat) : Prop := 1 ≤ n ∧ n ≤ 7

/-- The number of a month: 1 to 12. -/
def IsMonth (n : Nat) : Prop := 1 ≤ n ∧ n ≤ 12

/-- A day of a month, from the month's beginning or, if negative, from its end. -/
def IsMonthDay (n : Int) : Prop := n ≠ 0 ∧ -31 ≤ n ∧ n ≤ 31

instance (n : Nat) : Decidable (IsInterval n) := inferInstanceAs (Decidable (_ ∧ _))
instance (n : Nat) : Decidable (IsWeekday n) := inferInstanceAs (Decidable (_ ∧ _))
instance (n : Nat) : Decidable (IsMonth n) := inferInstanceAs (Decidable (_ ∧ _))
instance (n : Int) : Decidable (IsMonthDay n) := inferInstanceAs (Decidable (_ ∧ _))

/-- All numbers of the rule are in their ranges, and no list that a text has to name is empty. -/
def InRange : Rule → Prop
  | once => True
  | daily interval => IsInterval interval.toNat
  | yearly => True
  | weekly days => days.isEmpty = false ∧ ∀ d ∈ days, IsWeekday d.toNat
  | monthly days months =>
    (days.isEmpty = false ∧ ∀ d ∈ days, IsMonthDay d.toInt) ∧ ∀ m ∈ months, IsMonth m.toNat

end Rule

end Agenda
