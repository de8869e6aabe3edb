import Agenda.Proofs.Rule.Phrase

/-!
# Why a text is no rule

A text that names no rule is refused for its leftmost defect. Its words are looked at from left to
right: the letter first, then every argument that the letter calls for, and what is left over last.
In an argument the elements are looked at from left to right. Nothing behind a defect has any
effect.

- `Rule.arguments?`: the arguments of the kinds of rules.
- `Rule.Wrong`: the piece for which an argument is refused, and `Rule.Right`, an argument without
  one.
- `Rule.Defect`: the leftmost defect of a sequence of words.
- `Rule.ofWords_eq_error_iff`: words are refused for this defect and for no other.
- `Rule.ofText_leftmost_defect`: so are texts, whatever follows the defect.
-/

namespace Agenda.Rule

/-! ## Arguments -/

/-- The word is a numeral of a number in the range. -/
def IsNumeralIn {β : Type} (Number : List Char → β → Prop) (P : β → Prop) (word : List Char) :
    Prop :=
  ∃ n, Number word n ∧ P n

/-- The element is not valid, and all elements of the list before it are. -/
def FirstInvalid (Valid : List Char → Prop) (list element : List Char) : Prop :=
  ∃ before behind, Text.HasElements list (before ++ element :: behind) ∧
    (∀ other ∈ before, Valid other) ∧ ¬ Valid element

/-- The piece for which an argument is refused: the whole argument of a daily rule, and the first
invalid element of a list. -/
def Wrong : Fault → List Char → List Char → Prop
  | .interval, word, piece => ¬ IsNumeralIn Numeral.Natural IsInterval word ∧ piece = word
  | .weekday, list, element => FirstInvalid (IsNumeralIn Numeral.Natural IsWeekday) list element
  | .monthDay, list, element => FirstInvalid (IsNumeralIn Numeral.Integer IsMonthDay) list element
  | .month, list, element => FirstInvalid (IsNumeralIn Numeral.Natural IsMonth) list element
  | .unknownKind, _, _ | .surplus, _, _ => False

/-- There is no piece for which the argument is refused. -/
def Right (fault : Fault) (word : List Char) : Prop :=
  ∀ piece, ¬ Wrong fault word piece

/-- The arguments that a letter calls for, each with the fault of an argument that is missing or
wrong. Only the months may be left out. -/
def arguments? : Char → Option (List Fault)
  | 'd' => some [.interval]
  | 'y' => some []
  | 'w' => some [.weekday]
  | 'm' => some [.monthDay, .month]
  | _ => none

/-- There are four letters. -/
private theorem arguments?_cases {letter : Char} {faults : List Fault}
    (h : arguments? letter = some faults) :
    (letter = 'd' ∧ faults = [.interval]) ∨ (letter = 'y' ∧ faults = []) ∨
      (letter = 'w' ∧ faults = [.weekday]) ∨ (letter = 'm' ∧ faults = [.monthDay, .month]) := by
  unfold arguments? at h
  split at h <;> cases h <;> simp

/-- The leftmost defect of a sequence of words. -/
inductive Defect : List (List Char) → TextError → Prop
  /-- The first word is not the letter of a kind of rule. -/
  | unknownKind {word : List Char} {rest : List (List Char)}
      (h : ∀ letter, (arguments? letter).isSome → word ≠ [letter]) :
      Defect (word :: rest) ⟨.unknownKind, some (String.ofList word)⟩
  /-- The first argument is missing. -/
  | missing {letter : Char} {fault : Fault} {faults : List Fault}
      (h : arguments? letter = some (fault :: faults)) : Defect [[letter]] ⟨fault, none⟩
  /-- An argument is wrong, and those before it are right. -/
  | wrong {letter : Char} {before behind : List Fault} {fault : Fault}
      {words rest : List (List Char)} {word piece : List Char}
      (h : arguments? letter = some (before ++ fault :: behind))
      (hbefore : List.Forall₂ Right before words) (hwrong : Wrong fault word piece) :
      Defect ([letter] :: (words ++ word :: rest)) ⟨fault, some (String.ofList piece)⟩
  /-- All arguments are there and right, and there is a further word. -/
  | surplus {letter : Char} {faults : List Fault} {words rest : List (List Char)} {word : List Char}
      (h : arguments? letter = some faults) (hright : List.Forall₂ Right faults words) :
      Defect ([letter] :: (words ++ word :: rest)) ⟨.surplus, some (String.ofList word)⟩

/-! ## Checks -/

section Checks

variable {α : Type} {fault : Fault} {read? : List Char → Option α}

theorem readElement_eq_error_iff {piece : List Char} {error : TextError} :
    readElement fault read? piece = .error error ↔
      read? piece = none ∧ error = ⟨fault, some (String.ofList piece)⟩ := by
  unfold readElement
  cases read? piece <;> simp [eq_comm]

/-- Reading an argument fails exactly for its wrong piece. -/
def Checks (fault : Fault) (read : List Char → Except TextError α) : Prop :=
  ∀ word error, read word = .error error ↔
    ∃ piece, Wrong fault word piece ∧ error = ⟨fault, some (String.ofList piece)⟩

variable {read : List Char → Except TextError α} {word : List Char}

/-- Exactly a right argument is read. -/
theorem Checks.exists_eq_ok_iff (h : Checks fault read) :
    (∃ value, read word = .ok value) ↔ Right fault word := by
  cases hread : read word with
  | ok value =>
    refine iff_of_true ⟨value, rfl⟩ fun piece hwrong => ?_
    rw [(h word _).2 ⟨piece, hwrong, rfl⟩] at hread
    cases hread
  | error error =>
    obtain ⟨piece, hwrong, -⟩ := (h word error).1 hread
    exact iff_of_false nofun fun hright => hright piece hwrong

/-- If exactly the valid elements read, exactly the others do not. -/
theorem eq_none_iff_not {Valid : List Char → Prop}
    (hread : ∀ element, (∃ value, read? element = some value) ↔ Valid element)
    (element : List Char) : read? element = none ↔ ¬ Valid element := by
  rw [← hread, Option.eq_none_iff_forall_ne_some, not_exists]

/-- A list is refused for its first invalid element. -/
theorem readList_eq_error_iff {Valid : List Char → Prop}
    (hread : ∀ element, (∃ value, read? element = some value) ↔ Valid element)
    {list : List Char} {error : TextError} :
    readList fault read? list = .error error ↔
      ∃ element, FirstInvalid Valid list element ∧
        error = ⟨fault, some (String.ofList element)⟩ := by
  have hvalid (element : List Char) :
      (∃ value, readElement fault read? element = .ok value) ↔ Valid element := by
    simp only [readElement_eq_ok_iff, hread]
  unfold readList
  rw [mapM_eq_error_iff]
  simp only [FirstInvalid, Text.hasElements_iff, readElement_eq_error_iff, hvalid,
    eq_none_iff_not hread]
  constructor
  · rintro ⟨before, element, behind, hlist, hbefore, helement, herror⟩
    exact ⟨element, ⟨before, behind, hlist, hbefore, helement⟩, herror⟩
  · rintro ⟨element, ⟨before, behind, hlist, hbefore, helement⟩, herror⟩
    exact ⟨before, element, behind, hlist, hbefore, helement, herror⟩

end Checks

/-- What is read as a machine word is a numeral in the range. -/
private theorem exists_eq_some_iff {α β : Type} {read? : List Char → Option α} {val : α → β}
    {Number : List Char → β → Prop} {P : β → Prop}
    (hread : ∀ element value,
      read? element = some value ↔ Number element (val value) ∧ P (val value))
    (hval : ∀ n, P n → ∃ value, val value = n) (element : List Char) :
    (∃ value, read? element = some value) ↔ IsNumeralIn Number P element := by
  simp only [hread]
  constructor
  · rintro ⟨value, hvalue⟩
    exact ⟨val value, hvalue⟩
  · rintro ⟨n, hn, hrange⟩
    obtain ⟨value, rfl⟩ := hval n hrange
    exact ⟨value, hn, hrange⟩

theorem checks_interval : Checks .interval (readElement .interval interval?) := by
  intro word error
  rw [readElement_eq_error_iff,
    eq_none_iff_not (exists_eq_some_iff interval?_iff_natural exists_toNat_eq_interval)]
  constructor
  · rintro ⟨hwrong, rfl⟩
    exact ⟨word, ⟨hwrong, rfl⟩, rfl⟩
  · rintro ⟨_, ⟨hwrong, rfl⟩, rfl⟩
    exact ⟨hwrong, rfl⟩

theorem checks_weekday : Checks .weekday (readList .weekday weekday?) := fun _ _ =>
  readList_eq_error_iff (exists_eq_some_iff weekday?_iff_natural exists_toNat_eq_weekday)

theorem checks_monthDay : Checks .monthDay (readList .monthDay monthDay?) := fun _ _ =>
  readList_eq_error_iff (exists_eq_some_iff monthDay?_iff_integer exists_toInt_eq_monthDay)

theorem checks_month : Checks .month (readList .month month?) := fun _ _ =>
  readList_eq_error_iff (exists_eq_some_iff month?_iff_natural exists_toNat_eq_month)

/-! ## Words -/

theorem finish_eq_error_iff {rule : Rule} {words : List (List Char)} {error : TextError} :
    finish rule words = .error error ↔
      ∃ word rest, words = word :: rest ∧ error = ⟨.surplus, some (String.ofList word)⟩ := by
  cases words <;> simp [finish, eq_comm]

section Words

variable {letter : Char} {fault fault' : Fault} {behind : List Fault}
  {words rest : List (List Char)} {word word' piece : List Char} {error : TextError}

theorem Defect.wrong_first (h : arguments? letter = some (fault :: behind))
    (hwrong : Wrong fault word piece) :
    Defect ([letter] :: word :: rest) ⟨fault, some (String.ofList piece)⟩ :=
  @Defect.wrong letter [] behind fault [] rest word piece h .nil hwrong

theorem Defect.wrong_second (h : arguments? letter = some (fault :: fault' :: behind))
    (hright : Right fault word) (hwrong : Wrong fault' word' piece) :
    Defect ([letter] :: word :: word' :: rest) ⟨fault', some (String.ofList piece)⟩ :=
  @Defect.wrong letter [fault] behind fault' [word] rest word' piece h (.cons hright .nil) hwrong

/-- The first argument is wrong, or else it is right and what follows it is refused. -/
private theorem defect_or_right {α : Type} {read : List Char → Except TextError α}
    {next : α → Except TextError Rule} (hchecks : Checks fault read)
    (hletter : arguments? letter = some (fault :: behind))
    (h : (read word >>= next) = .error error) :
    Defect ([letter] :: word :: rest) error ∨
      ∃ value, Right fault word ∧ next value = .error error := by
  rcases bind_eq_error_iff.1 h with h | ⟨value, hvalue, h⟩
  · obtain ⟨piece, hwrong, rfl⟩ := (hchecks _ _).1 h
    exact Or.inl (.wrong_first hletter hwrong)
  · exact Or.inr ⟨value, hchecks.exists_eq_ok_iff.1 ⟨value, hvalue⟩, h⟩

/-- What is refused has the defect that it is refused for. -/
private theorem defect_of_ofWords (h : ofWords words = .error error) : Defect words error := by
  have hd : arguments? 'd' = some [.interval] := rfl
  have hw : arguments? 'w' = some [.weekday] := rfl
  have hm : arguments? 'm' = some [.monthDay, .month] := rfl
  -- One case for every letter, in which the arguments are taken one by one; then a wrong letter.
  unfold ofWords at h
  split at h
  next => cases h
  next rest =>
    cases rest with
    | nil =>
      cases h
      exact .missing hd
    | cons word rest =>
      rcases defect_or_right checks_interval hd h with h | ⟨interval, hright, h⟩
      · exact h
      obtain ⟨surplus, rest, rfl, rfl⟩ := finish_eq_error_iff.1 h
      exact .surplus hd (.cons hright .nil)
  next =>
    obtain ⟨surplus, rest, rfl, rfl⟩ := finish_eq_error_iff.1 h
    exact .surplus rfl .nil
  next rest =>
    cases rest with
    | nil =>
      cases h
      exact .missing hw
    | cons word rest =>
      rcases defect_or_right checks_weekday hw h with h | ⟨days, hright, h⟩
      · exact h
      obtain ⟨surplus, rest, rfl, rfl⟩ := finish_eq_error_iff.1 h
      exact .surplus hw (.cons hright .nil)
  next rest =>
    cases rest with
    | nil =>
      cases h
      exact .missing hm
    | cons word rest =>
      rcases defect_or_right checks_monthDay hm h with h | ⟨days, hright, h⟩
      · exact h
      cases rest with
      | nil => cases h
      | cons word' rest =>
        rcases bind_eq_error_iff.1 h with h | ⟨months, hmonths, h⟩
        · obtain ⟨piece, hwrong, rfl⟩ := (checks_month _ _).1 h
          exact .wrong_second hm hright hwrong
        have hright' := checks_month.exists_eq_ok_iff.1 ⟨months, hmonths⟩
        obtain ⟨surplus, rest, rfl, rfl⟩ := finish_eq_error_iff.1 h
        exact .surplus hm (.cons hright (.cons hright' .nil))
  next word rest _ hd hy hw hm =>
    cases h
    refine .unknownKind fun letter hletter hword => ?_
    subst hword
    obtain ⟨faults, hletter⟩ := Option.isSome_iff_exists.1 hletter
    rcases arguments?_cases hletter with ⟨rfl, -⟩ | ⟨rfl, -⟩ | ⟨rfl, -⟩ | ⟨rfl, -⟩
    · exact hd rfl
    · exact hy rfl
    · exact hw rfl
    · exact hm rfl

/-- A wrong argument is refused for its piece. -/
private theorem Checks.eq_error {α : Type} {read : List Char → Except TextError α}
    (h : Checks fault read) (hwrong : Wrong fault word piece) :
    read word = .error ⟨fault, some (String.ofList piece)⟩ :=
  (h word _).2 ⟨piece, hwrong, rfl⟩

private theorem ofWords_daily (word : List Char) (rest : List (List Char)) :
    ofWords (['d'] :: word :: rest) =
      readElement .interval interval? word >>= fun interval => finish (.daily interval) rest :=
  rfl

private theorem ofWords_weekly (word : List Char) (rest : List (List Char)) :
    ofWords (['w'] :: word :: rest) =
      readList .weekday weekday? word >>= fun days => finish (.weekly (.ofList days)) rest :=
  rfl

private theorem ofWords_monthly (word word' : List Char) (rest : List (List Char)) :
    ofWords (['m'] :: word :: word' :: rest) =
      readList .monthDay monthDay? word >>= fun days =>
        readList .month month? word' >>= fun months =>
          finish (.monthly (.ofList days) (.ofList months)) rest :=
  rfl

/-- The argument of a rule for every month is checked although no other follows. -/
private theorem ofWords_monthly_of_wrong (hwrong : Wrong .monthDay word piece)
    (rest : List (List Char)) :
    ofWords (['m'] :: word :: rest) = .error ⟨.monthDay, some (String.ofList piece)⟩ := by
  refine bind_eq_error_iff.2 (Or.inr ⟨(word, rest), rfl, bind_eq_error_iff.2 (Or.inl ?_)⟩)
  exact checks_monthDay.eq_error hwrong

/-- What has a defect is refused for it. -/
private theorem ofWords_of_defect (h : Defect words error) : ofWords words = .error error := by
  cases h with
  | unknownKind h =>
    -- The four patterns for the letters are those that the word does not match.
    unfold ofWords
    split
    next hwords => cases hwords
    next hwords =>
      cases hwords
      exact absurd rfl (h 'd' rfl)
    next hwords =>
      cases hwords
      exact absurd rfl (h 'y' rfl)
    next hwords =>
      cases hwords
      exact absurd rfl (h 'w' rfl)
    next hwords =>
      cases hwords
      exact absurd rfl (h 'm' rfl)
    next hwords =>
      cases hwords
      rfl
  | missing h =>
    obtain ⟨rfl, h⟩ | ⟨rfl, h⟩ | ⟨rfl, h⟩ | ⟨rfl, h⟩ := arguments?_cases h <;> cases h <;> rfl
  | wrong h hbefore hwrong =>
    -- Which argument it is follows from the number of those before it.
    obtain ⟨rfl, hfaults⟩ | ⟨rfl, hfaults⟩ | ⟨rfl, hfaults⟩ | ⟨rfl, hfaults⟩ :=
      arguments?_cases h
    · cases hbefore with
      | nil =>
        cases hfaults
        rw [List.nil_append, ofWords_daily, checks_interval.eq_error hwrong]
        rfl
      | cons _ _ => simp at hfaults
    · simp at hfaults
    · cases hbefore with
      | nil =>
        cases hfaults
        rw [List.nil_append, ofWords_weekly, checks_weekday.eq_error hwrong]
        rfl
      | cons _ _ => simp at hfaults
    · cases hbefore with
      | nil =>
        cases hfaults
        exact ofWords_monthly_of_wrong hwrong _
      | cons hright hbefore =>
        cases hbefore with
        | nil =>
          cases hfaults
          obtain ⟨days, hdays⟩ := checks_monthDay.exists_eq_ok_iff.2 hright
          rw [List.singleton_append, ofWords_monthly, hdays]
          change (readList .month month? _ >>= _) = _
          rw [checks_month.eq_error hwrong]
          rfl
        | cons _ _ => simp at hfaults
  | surplus h hright =>
    -- Right arguments are read, which leaves the surplus word to `finish`.
    rcases arguments?_cases h with ⟨rfl, rfl⟩ | ⟨rfl, rfl⟩ | ⟨rfl, rfl⟩ | ⟨rfl, rfl⟩
    · rcases hright with _ | ⟨hright, ⟨⟩⟩
      obtain ⟨interval, hinterval⟩ := checks_interval.exists_eq_ok_iff.2 hright
      rw [List.singleton_append, ofWords_daily, hinterval]
      rfl
    · cases hright
      rfl
    · rcases hright with _ | ⟨hright, ⟨⟩⟩
      obtain ⟨days, hdays⟩ := checks_weekday.exists_eq_ok_iff.2 hright
      rw [List.singleton_append, ofWords_weekly, hdays]
      rfl
    · rcases hright with _ | ⟨hright, _ | ⟨hright', ⟨⟩⟩⟩
      obtain ⟨days, hdays⟩ := checks_monthDay.exists_eq_ok_iff.2 hright
      obtain ⟨months, hmonths⟩ := checks_month.exists_eq_ok_iff.2 hright'
      rw [List.cons_append, List.singleton_append, ofWords_monthly, hdays]
      change (readList .month month? _ >>= _) = _
      rw [hmonths]
      rfl

/-- Words are refused for their leftmost defect. -/
theorem ofWords_eq_error_iff : ofWords words = .error error ↔ Defect words error :=
  ⟨defect_of_ofWords, ofWords_of_defect⟩

/-- Further words do not change a defect, unless it is that an argument is missing. -/
theorem Defect.append (h : Defect words error) (htoken : error.token ≠ none)
    (more : List (List Char)) : Defect (words ++ more) error := by
  cases h with
  | unknownKind h => exact .unknownKind h
  | missing h => exact absurd rfl htoken
  | wrong h hbefore hwrong =>
    rw [List.cons_append, List.append_assoc, List.cons_append]
    exact .wrong h hbefore hwrong
  | surplus h hright =>
    rw [List.cons_append, List.append_assoc, List.cons_append]
    exact .surplus h hright

/-- Only a missing argument has no piece to point at, and only the first one can be missing. -/
theorem Defect.fault_of_token_eq_none (h : Defect words error) (htoken : error.token = none) :
    error.fault = .interval ∨ error.fault = .weekday ∨ error.fault = .monthDay := by
  cases h with
  | missing h =>
    obtain ⟨-, h⟩ | ⟨-, h⟩ | ⟨-, h⟩ | ⟨-, h⟩ := arguments?_cases h <;> cases h <;> simp
  | unknownKind _ => cases htoken
  | wrong _ _ _ => cases htoken
  | surplus _ _ => cases htoken

end Words

/-- A text is refused for its leftmost defect. Only the interval, the weekdays or the days of the
month can be missing; every other defect comes with the piece of the text that has it. Such a defect
is the one that a text is refused for however the text goes on behind a blank. -/
theorem ofText_leftmost_defect :
    (∀ text error, ofText text = .error error ↔
      ∃ words, Text.HasWords text.toList words ∧ Defect words error) ∧
    (∀ text error, ofText text = .error error → error.token = none →
      error.fault = .interval ∨ error.fault = .weekday ∨ error.fault = .monthDay) ∧
    ∀ text error blank more, ofText text = .error error → error.token ≠ none →
      Text.isBlankChar blank = true →
        ofText (String.ofList (text.toList ++ blank :: more)) = .error error := by
  refine ⟨fun text error => ?_, fun text error h => ?_, ?_⟩
  · simp only [Text.hasWords_iff, exists_eq_left']
    exact ofWords_eq_error_iff
  · exact (ofWords_eq_error_iff.1 h).fault_of_token_eq_none
  · intro text error blank more h htoken hblank
    unfold ofText
    rw [String.toList_ofList, Text.words_append_cons hblank]
    exact ofWords_eq_error_iff.2 ((ofWords_eq_error_iff.1 h).append htoken _)

/-- The days of the month have an empty element, there is no month 13, and more words follow: the
text is refused for the empty element, whatever the months are. A text that ends with its first
letter is refused without a piece. -/
theorem ofText_leftmost_defect_emptyElement :
    let empty : TextError := ⟨.monthDay, some ""⟩
    let missing : TextError := ⟨.interval, none⟩
    (ofText "m 1,,40" = .error empty ∧ empty.token ≠ none ∧ Text.isBlankChar '\t' = true) ∧
      (∃ words, Text.HasWords "m 1,,40".toList words ∧ Defect words empty) ∧
      ofText "m 1,,40\t13 y" = .error empty ∧
      (ofText " d" = .error missing ∧ missing.token = none) ∧
      (missing.fault = .interval ∨ missing.fault = .weekday ∨ missing.fault = .monthDay) := by
  intro empty missing
  have hempty : ofText "m 1,,40" = .error empty := by decide
  have htoken : empty.token ≠ none := nofun
  have hblank : Text.isBlankChar '\t' = true := by decide
  have hmissing : ofText " d" = .error missing := by decide
  have hlonger : String.ofList ("m 1,,40".toList ++ '\t' :: "13 y".toList) = "m 1,,40\t13 y" := by
    decide
  obtain ⟨hdefect, hfault, hmasked⟩ := ofText_leftmost_defect
  have hrefused := hmasked "m 1,,40" empty '\t' "13 y".toList hempty htoken hblank
  rw [hlonger] at hrefused
  exact ⟨⟨hempty, htoken, hblank⟩, (hdefect "m 1,,40" empty).1 hempty, hrefused,
    ⟨hmissing, rfl⟩, hfault " d" missing hmissing rfl⟩

end Agenda.Rule
