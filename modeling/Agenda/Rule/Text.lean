import Agenda.Rule.Basic
import Agenda.Text.Numeral

/-!
# The canonical text of a rule

A rule is written as the letter of its kind and its lists, separated by single spaces. Lists are
ascending, and a rule for every month names no month (`m -1,15 2,3`, `d 7`, the empty text).
-/

namespace Agenda.Rule

/-- The members of a list with commas between them. -/
def commaList {α : Type} (write : α → List Char) (members : List α) : List Char :=
  [','].intercalate (members.map write)

/-- The characters of a rule's canonical text. -/
def chars : Rule → List Char
  | once => []
  | daily interval => 'd' :: ' ' :: Numeral.ofNat interval.toNat
  | yearly => ['y']
  | weekly days => 'w' :: ' ' :: commaList (Numeral.ofNat ·.toNat) days.toList
  | monthly days months =>
    'm' :: ' ' :: commaList (Numeral.ofInt ·.toInt) days.toList ++
      if months.isEmpty then [] else ' ' :: commaList (Numeral.ofNat ·.toNat) months.toList

/-- A rule's canonical text. -/
def text (rule : Rule) : String :=
  String.ofList rule.chars

end Agenda.Rule
