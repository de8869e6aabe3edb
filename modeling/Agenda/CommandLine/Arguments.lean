import Agenda.CommandLine.Command

/-!
# Reading the command line

The words of a command line are taken from left to right.

- A word that leads further down the tree of commands does so, unless it is the value of a
  parameter or stands behind `--`.
- A parameter is given as `--name value`, `--name=value`, `-n value`, `-nvalue` or `-n=value`.
- A word that begins with a dash is an option, except for the value of `--repeat`, for the rule of
  `check-rule`, whose only options are those for help, and behind `--`.
- A parameter takes effect when the next one begins or the words end; that is when a missing value
  or a repetition is noticed.
-/

namespace Agenda.Command

/-- The words read so far. -/
structure Reading where
  /-- The place in the tree of commands. -/
  scope : Scope
  /-- Whether `--` has come, behind which no word is an option or names a command. -/
  literal : Bool
  /-- The parameter that has been named last, with its value if that has come. -/
  pending : Option (Parameter × Option String)
  /-- The parameters that have taken effect. -/
  given : List (Parameter × String)
  /-- The rule to check. -/
  subject : Option String

namespace Reading

/-- Nothing read yet at a place of the tree. -/
def start (scope : Scope) : Reading :=
  ⟨scope, false, none, [], none⟩

/-- The parameter whose value is still to come. -/
def waiting? (r : Reading) : Option Parameter :=
  match r.pending with
  | some (p, none) => some p
  | _ => none

/-- Whether the next word is a value even if it begins with a dash. -/
def takesAnyWord (r : Reading) : Bool :=
  r.waiting?.any (·.takesDashes)

/-- Whether the rule to check is still to come. -/
def lacksSubject (r : Reading) : Bool :=
  r.scope = .checkRule ∧ r.subject = none

/-- Let the parameter that has been named last take effect. -/
def resolve (r : Reading) : Except UsageError Reading :=
  match r.pending with
  | none => .ok r
  | some (_, none) => .error .missingValue
  | some (p, some value) =>
    if r.given.any (·.1 = p) then .error .repeatedParameter
    else .ok { r with pending := none, given := r.given ++ [(p, value)] }

/-- A parameter is named; its value follows or is attached. -/
def name (r : Reading) (p : Parameter) (attached : Option String) : Except UsageError Reading := do
  let r := { ← r.resolve with pending := some (p, attached) }
  if attached.isSome then r.resolve else return r

/-- An option that ends the reading. -/
def stop (r : Reading) (why : UsageError) : Except UsageError Reading := do
  let _ ← r.resolve
  throw why

/-- A word that begins with two dashes, cut at its first equals sign. It is no option if the
result is `none`. -/
def longOption (r : Reading) (long : String) (attached : Option String) :
    Except UsageError (Option Reading) :=
  if r.takesAnyWord then .ok none
  else
    match r.scope.longOption? long with
    | some (.parameter p) => some <$> r.name p attached
    | some .help => some <$> flag .helpWanted
    | some .version => some <$> flag .versionWanted
    | none => if r.lacksSubject then .ok none else .error .unknownArgument
where
  /-- An option that takes no value. -/
  flag (why : UsageError) : Except UsageError Reading :=
    if attached.isSome then .error .surplusValue else r.stop why

/-- The value attached to a letter, if there is one; an equals sign in front is cut off. -/
def attachedToLetter : List Char → Option String
  | [] => none
  | '=' :: rest => some (String.ofList rest)
  | rest => some (String.ofList rest)

/-- A word that begins with one dash, given by its letters. It is no option if the result is
`none`. -/
def shortOptions (r : Reading) (letters : List Char) : Except UsageError (Option Reading) :=
  if r.takesAnyWord then .ok none
  else if r.lacksSubject ∧ letters.any fun c => (r.scope.shortOption? c).isNone then .ok none
  else
    match letters with
    | [] => .ok none
    | letter :: rest =>
      match r.scope.shortOption? letter with
      | some (.parameter p) => some <$> r.name p (attachedToLetter rest)
      | some .help => some <$> r.stop .helpWanted
      | some .version => some <$> r.stop .versionWanted
      | none => .error .unknownArgument

/-- A word that is no option: the value of a parameter or the rule to check. -/
def value (r : Reading) (word : String) : Except UsageError Reading :=
  match r.literal, r.waiting? with
  | false, some p => .ok { r with pending := some (p, some word) }
  | _, _ =>
    if r.lacksSubject then do
      return { ← r.resolve with subject := some word }
    else if r.scope.children.isEmpty ∨ r.literal ∧ (r.scope.child? word).isSome then
      .error .unknownArgument
    else .error .unknownCommand

/-- Take a word that does not lead further down the tree. -/
def word (r : Reading) (word : String) : Except UsageError Reading := do
  if r.literal then r.value word
  else
    let option ← match word.toList with
      | ['-', '-'] => pure (if r.takesAnyWord then none else some { r with literal := true })
      | '-' :: '-' :: long =>
        let cut := long.span (· ≠ '=')
        r.longOption (String.ofList cut.1) (match cut.2 with
          | _ :: attached => some (String.ofList attached)
          | [] => none)
      | '-' :: letters => r.shortOptions letters
      | _ => pure none
    match option with
    | some r => return r
    | none => r.value word

/-- The words have ended. -/
def finish (r : Reading) : Except UsageError Command := do
  let r ← r.resolve
  let find (p : Parameter) : Option String := (r.given.find? (·.1 = p)).map (·.2)
  match r.scope with
  | .root | .task | .help => throw .noCommand
  | .nextDate =>
    match find .date with
    | none => throw .missingArgument
    | some date => return .nextDate date (find .now) ((find .rule).getD "")
  | .checkRule =>
    match r.subject with
    | none => throw .missingArgument
    | some rule => return .checkRule rule
  | .prepareTask => return .prepareTask
  | .completeTask => return .completeTask

end Reading

/-- The words behind `help` name what the help is about. -/
def helpAbout (scope : Scope) : List String → UsageError
  | [] => .helpWanted
  | word :: rest =>
    match scope.child? word with
    | none => .unknownCommand
    | some scope => helpAbout scope rest

/-- Continue reading with the given words. -/
def ofWordsFrom (r : Reading) : List String → Except UsageError Command
  | [] => r.finish
  | word :: rest =>
    match if r.literal ∨ r.waiting?.isSome then none else r.scope.child? word with
    | some .help => .error (helpAbout r.scope rest)
    | some scope => ofWordsFrom (.start scope) rest
    | none => do ofWordsFrom (← r.word word) rest

/-- The command that the words of a command line name. -/
def ofWords (words : List String) : Except UsageError Command :=
  ofWordsFrom (.start .root) words

end Agenda.Command
