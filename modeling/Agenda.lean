import Agenda.Date.DayNumber.Lemmas
import Agenda.Main
import Agenda.Occurrence.Basic
import Agenda.Occurrence.Series
import Agenda.Proofs.Date.Order
import Agenda.Proofs.Occurrence.Finds
import Agenda.Proofs.Date.Anniversary
import Agenda.Proofs.Occurrence.Distance
import Agenda.Proofs.Occurrence.Weekday
import Agenda.Proofs.Date.Month
import Agenda.Proofs.Occurrence.MonthDay
import Agenda.Proofs.Occurrence.Next
import Agenda.Proofs.Rule.Grammar
import Agenda.Proofs.Rule.Canonical
import Agenda.Proofs.Occurrence.Series
import Agenda.Proofs.Occurrence.Gap
import Agenda.Proofs.Date.Text
import Agenda.Proofs.Task.Schedule
import Agenda.Proofs.Task.Run
import Agenda.Proofs.Occurrence.MovingAnchor
import Agenda.Proofs.Occurrence.Exhausted
import Agenda.Proofs.Task.Agreement
import Agenda.Proofs.Task.Yearly
import Agenda.Proofs.Occurrence.DayByDay
import Agenda.Proofs.Json.Reading
import Agenda.Proofs.Task.Json
import Agenda.Proofs.CommandLine.Output
import Agenda.Proofs.Occurrence.StepByStep
import Agenda.Proofs.Occurrence.Weekly
import Agenda.Proofs.Occurrence.LaterReference
import Agenda.Proofs.Occurrence.LongerHorizon
import Agenda.Proofs.Text.Pieces
import Agenda.Proofs.Rule.Phrase
import Agenda.Proofs.Rule.Defect
import Agenda.Proofs.Task.Preparation
import Agenda.Proofs.Date.Bytes
import Agenda.Proofs.Task.Completion
import Agenda.Proofs.Task.Again
import Agenda.Proofs.Json.Scalar
import Agenda.Proofs.Json.Values
import Agenda.Proofs.Task.Members
import Agenda.Proofs.Date.Following
import Agenda.Proofs.Date.Gregorian
import Agenda.Proofs.Occurrence.Exact
import Agenda.Proofs.Settings.Load
