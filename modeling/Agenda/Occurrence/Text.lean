import Agenda.Occurrence.Search
import Agenda.Rule.Parser

/-!
# The next occurrence of a rule given as text

Rule, anchor and reference are read from their texts, in this order, so that a bad rule is always
reported as such.
-/

namespace Agenda

/-- Why a rule has no next date: it cannot be read, or the search fails. -/
inductive RuleError where
  /-- The text is not a rule. -/
  | text (cause : Rule.TextError)
  /-- No next date can be computed. -/
  | search (cause : SearchError)
deriving DecidableEq

namespace RuleError

/-- The wording of the reason. -/
def message : RuleError → String
  | text cause => s!"Invalid rule: {cause.message}"
  | search cause => s!"Cannot compute next date: {cause.message}"

/-- The reasons behind the reason, outermost first. -/
def causes : RuleError → List String
  | text cause => [cause.message]
  | search cause => cause.message :: cause.causes

end RuleError

namespace Rule

/-- Reads a rule; a text that is none is an error of the rule. -/
def read (text : String) : Except RuleError Rule :=
  (ofText text).mapError .text

/-- The next occurrence as an eight-digit text, which is empty if there is none. -/
def nextText (horizon : Horizon) (rule anchor reference : String) : Except RuleError String := do
  let rule ← read rule
  let anchor ← (Date.ofText anchor).mapError (RuleError.search ∘ .malformedAnchor)
  let reference ← (Date.ofText reference).mapError (RuleError.search ∘ .malformedReference)
  let next ← (rule.next horizon anchor reference).mapError .search
  return (next.map Date.text).getD ""

end Rule

end Agenda
