import Agenda.Occurrence.Search

/-!
# Series of occurrences

The occurrences of a rule one after the other: each becomes the reference of the next search, and
with a moving anchor its anchor as well.
-/

namespace Agenda

/-- What ends a series. -/
inductive Series.End where
  /-- As many occurrences as were asked for. -/
  | complete
  /-- No further occurrence. -/
  | noMore
  /-- A search that failed. -/
  | failed (error : SearchError)
deriving DecidableEq

/-- Occurrences in their order, and what ends them. -/
structure Series where
  /-- The occurrences. -/
  dates : List Date
  /-- What ends them. -/
  ended : Series.End
deriving DecidableEq

/-- Whether every occurrence becomes the anchor of the next search. -/
inductive AnchorPolicy where
  | fixed
  | moving
deriving DecidableEq

/-- The anchor of the search that follows the one which found the date. -/
def AnchorPolicy.following (policy : AnchorPolicy) (anchor date : Date) : Date :=
  match policy with
  | fixed => anchor
  | moving => date

namespace Rule

/-- Continue a series, whose occurrences so far are given latest first, by at most `count` more. -/
def seriesFrom (rule : Rule) (horizon : Horizon) (policy : AnchorPolicy) (soFar : List Date) :
    Date → Date → Nat → Series
  | _, _, 0 => ⟨soFar.reverse, .complete⟩
  | anchor, reference, count + 1 =>
    match rule.next horizon anchor reference with
    | .error error => ⟨soFar.reverse, .failed error⟩
    | .ok none => ⟨soFar.reverse, .noMore⟩
    | .ok (some date) =>
      seriesFrom rule horizon policy (date :: soFar) (policy.following anchor date) date count

/-- At most `count` occurrences of a rule after the reference, counted from the anchor. -/
def series (rule : Rule) (horizon : Horizon) (policy : AnchorPolicy) (anchor reference : Date)
    (count : Nat) : Series :=
  seriesFrom rule horizon policy [] anchor reference count

end Rule

end Agenda
