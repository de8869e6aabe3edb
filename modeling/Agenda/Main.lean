import Agenda.Program
import Std.Time.Zoned

/-!
# The executable

Gathers what a run of the program is given, runs it, and writes what it says.
-/

namespace Agenda.Main

/-- The variables of the process. -/
def environment : IO Settings.Environment := do
  let bytes ← IO.FS.readBinFile "/proc/self/environ"
  let assignments := ((String.fromUTF8? bytes).getD "").toList.splitOn '\x00'
  return assignments.filterMap fun assignment =>
    match assignment.span (· ≠ '=') with
    | (name, '=' :: value) => some (String.ofList name, String.ofList value)
    | _ => none

/-- The text of a file, if there is one. -/
def fileText? (path : String) : IO (Option String) := do
  try
    return some (← IO.FS.readFile path)
  catch
    | .noFileOrDirectory .. => return none
    | error => throw error

/-- The text of the environment file of this directory or else of the nearest directory above it,
`levels` of which are looked at. -/
def environmentFile? (path : String) : Nat → IO (Option String)
  | 0 => fileText? path
  | levels + 1 => do
    match ← fileText? path with
    | some text => return some text
    | none => environmentFile? ("../" ++ path) levels

/-- The day it is, by the local time zone. -/
def today : IO Date := do
  let now ← Std.Time.PlainDate.now
  match Date.ofYmd? now.year.toInt now.month.val.toNat now.day.val.toNat with
  | some date => return date
  | none => throw (IO.userError "the clock shows no date of the years 1 to 9999")

/-- What a run of the program with the given words is given besides them. -/
def call (words : List String) : IO Program.Call := do
  let levels := (← IO.currentDir).components.length
  let sources : Settings.Sources :=
    ⟨← environment, ← environmentFile? ".env" levels, ← fileText? "config.toml"⟩
  let input ←
    if Program.readsInput words then (← IO.getStdin).readBinToEnd else pure ByteArray.empty
  return ⟨words, sources, ← today, input⟩

end Agenda.Main

/-- Run the program once. -/
def main (words : List String) : IO UInt32 := do
  let ending := Agenda.Program.run (← Agenda.Main.call words)
  IO.print ending.output
  if let some failure := ending.failure then IO.eprint failure.report
  return ending.code
