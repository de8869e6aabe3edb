import Agenda.Proofs.Json.Values
import Agenda.Proofs.Task.Json

/-!
# Objects that are read as tasks

Which task an object is read as, told by the text of the object alone: its members may stand in any
order, with white space and escapes wherever the grammar has them, and between them there may be
members of any other name with values of any depth.

- `Task.IsGivenBy`: the members of an object give the task.
- `Task.Repeats` and `Task.HasNonText`: a field comes twice, or its value is not a quoted text.
- `Task.ofJson?_of_isObject`: the former objects are read as their task, the latter are refused.
-/

namespace Agenda.Task

open Json (Denotes IsObject Member inQuotes)

/-- The key of a member is the name of a field. -/
def Names (member : Member) (field : Field) : Prop :=
  Denotes member.key field.key.toList

/-- One field is named by two members. -/
def Repeats (members : List Member) : Prop :=
  ∃ field member other, [member, other].Sublist members ∧ Names member field ∧ Names other field

/-- The value of some field is not a quoted text. -/
def HasNonText (members : List Member) : Prop :=
  ∃ member ∈ members, ∃ field, Names member field ∧ ∀ inner, member.value ≠ inQuotes inner

/-- The members give the task. Their keys may be written with escapes, and a member whose key is the
name of no field may have any value. -/
structure IsGivenBy (task : Task) (members : List Member) : Prop where
  /-- Every key denotes characters. -/
  key : ∀ member ∈ members, ∃ name, Denotes member.key name
  /-- A field that is named has its text, also if that is empty. -/
  text : ∀ member ∈ members, ∀ field, Names member field →
    ∃ inner, member.value = inQuotes inner ∧ Denotes inner (task.get field).toList
  /-- No field is named twice. -/
  once : ¬ Repeats members
  /-- Every field that is not empty is named. -/
  complete : ∀ field, task.get field ≠ "" → ∃ member ∈ members, Names member field

variable {task : Task} {members : List Member} {member : Member}
  {read : List Json.CodeUnit × Json.Value}

/-! ## Fields that are read -/

theorem key_of_ofKey? {name : String} {field : Field} (h : Field.ofKey? name = some field) :
    field.key = name := by
  simpa using List.find?_some h

/-- The name of a field is read as the field. -/
theorem Names.fieldOf?_eq {field : Field} (h : Names member field) (hread : member.ReadAs read) :
    fieldOf? read = some field := by
  simp [fieldOf?, hread.key h, ofKey?_key]

/-- What is read as a field is the name of the field. -/
theorem names_of_fieldOf? {field : Field} (hread : member.ReadAs read)
    (hkey : ∃ name, Denotes member.key name) (h : fieldOf? read = some field) :
    Names member field := by
  obtain ⟨name, hname⟩ := hkey
  have hfield : Field.ofKey? (String.ofList name) = some field := by
    simpa [fieldOf?, hread.key hname] using h
  rw [Names, key_of_ofKey? hfield, String.toList_ofList]
  exact hname

/-! ## Objects that give a task -/

/-- What is read of a member agrees with the task that the members give. -/
theorem IsGivenBy.agrees (h : task.IsGivenBy members) (hmember : member ∈ members)
    (hread : member.ReadAs read) : task.Agrees read := by
  obtain ⟨name, hname⟩ := h.key member hmember
  refine ⟨⟨name, hread.key hname⟩, fun {field} hfield => ?_⟩
  have hnames := names_of_fieldOf? hread ⟨name, hname⟩ hfield
  obtain ⟨inner, hvalue, hdenotes⟩ := h.text member hmember field hnames
  exact hread.text hvalue hdenotes

/-- No field is read twice if none is named twice. -/
theorem IsGivenBy.nodup {read : Member → List Json.CodeUnit × Json.Value}
    (h : task.IsGivenBy members) (hread : ∀ member ∈ members, member.ReadAs (read member)) :
    ((members.map read).filterMap fieldOf?).Nodup := by
  rw [List.filterMap_map, List.Nodup, List.pairwise_filterMap, List.pairwise_iff_forall_sublist]
  intro member other hsublist field hfield field' hfield' hsame
  have hmember : member ∈ members := hsublist.mem (by simp)
  have hother : other ∈ members := hsublist.mem (by simp)
  subst hsame
  exact h.once ⟨field, member, other, hsublist,
    names_of_fieldOf? (hread member hmember) (h.key member hmember) hfield,
    names_of_fieldOf? (hread other hother) (h.key other hother) hfield'⟩

/-! ## Objects that are refused -/

variable {found taken : List (Field × String)}

/-- A member that is taken adds the field that it names, if it names one. The field is new, and the
value has characters. -/
theorem takeMember_eq_some (h : takeMember found read = some taken) :
    taken.map Prod.fst = found.map Prod.fst ++ (fieldOf? read).toList ∧
      ∀ field, fieldOf? read = some field →
        field ∉ found.map Prod.fst ∧ read.2.chars? ≠ none := by
  unfold takeMember at h
  obtain ⟨name, hname, h⟩ := Option.bind_eq_some_iff.1 h
  have hnames : fieldOf? read = Field.ofKey? (String.ofList name) := by simp [fieldOf?, hname]
  cases hfield : Field.ofKey? (String.ofList name) with
  | none =>
    rw [hfield] at h hnames
    cases h
    simp [hnames]
  | some field =>
    rw [hfield] at h hnames
    by_cases hany : found.any (·.1 = field) = true
    · simp [hany] at h
    · obtain ⟨text, htext, rfl⟩ : ∃ text, read.2.chars? = some text ∧
          found ++ [(field, String.ofList text)] = taken := by
        simpa [hany, Option.bind_eq_some_iff] using h
      refine ⟨by simp [hnames], fun other hother => ?_⟩
      cases hnames.symm.trans hother
      refine ⟨fun hfound => hany ?_, by simp [htext]⟩
      obtain ⟨pair, hpair, hfirst⟩ := List.mem_map.1 hfound
      exact List.any_eq_true.2 ⟨pair, hpair, decide_eq_true hfirst⟩

/-- Members that are taken one after the other name different fields, and their values have
characters. -/
theorem foldlM_takeMember_eq_some {reads : List (List Json.CodeUnit × Json.Value)}
    (h : reads.foldlM takeMember found = some taken) (hfound : (found.map Prod.fst).Nodup) :
    (found.map Prod.fst ++ reads.filterMap fieldOf?).Nodup ∧
      ∀ read ∈ reads, ∀ field, fieldOf? read = some field → read.2.chars? ≠ none := by
  -- Along the members: the fields that were taken so far stay different.
  induction reads generalizing found with
  | nil => simpa using hfound
  | cons read reads ih =>
    obtain ⟨next, hnext, hrest⟩ := Option.bind_eq_some_iff.1 h
    obtain ⟨hfields, hnew⟩ := takeMember_eq_some hnext
    have hnodup : (next.map Prod.fst).Nodup := by
      rw [hfields]
      cases hfield : fieldOf? read with
      | none => simpa using hfound
      | some field =>
        exact hfound.append (List.nodup_singleton field)
          (List.disjoint_singleton.2 (hnew field hfield).1)
    obtain ⟨hall, hvalues⟩ := ih hrest hnodup
    refine ⟨?_, List.forall_mem_cons.2 ⟨fun field hfield => (hnew field hfield).2, hvalues⟩⟩
    rw [hfields] at hall
    cases hfield : fieldOf? read <;> simpa [List.filterMap_cons, hfield] using hall

/-- An object is refused if a field comes twice or its value is not a quoted text. -/
theorem foldlM_takeMember_eq_none {read : Member → List Json.CodeUnit × Json.Value}
    (hread : ∀ member ∈ members, member.ReadAs (read member))
    (h : Repeats members ∨ HasNonText members) :
    (members.map read).foldlM takeMember [] = none := by
  rw [Option.eq_none_iff_forall_ne_some]
  intro taken htaken
  -- Members that are all taken name different fields, and these have texts.
  obtain ⟨hnodup, hvalues⟩ := foldlM_takeMember_eq_some htaken List.nodup_nil
  rcases h with hrepeats | hnonText
  · obtain ⟨field, member, other, hsublist, hmember, hother⟩ := hrepeats
    rw [List.map_nil, List.nil_append, List.filterMap_map, List.Nodup, List.pairwise_filterMap,
      List.pairwise_iff_forall_sublist] at hnodup
    have hread' := hread member (hsublist.mem (by simp))
    have hread'' := hread other (hsublist.mem (by simp))
    exact hnodup hsublist field (hmember.fieldOf?_eq hread') field (hother.fieldOf?_eq hread'') rfl
  · obtain ⟨member, hmember, field, hnames, hvalue⟩ := hnonText
    have hmemberRead := hread member hmember
    exact hvalues (read member) (List.mem_map_of_mem hmember) field
      (hnames.fieldOf?_eq hmemberRead) (hmemberRead.other hvalue)

/-! ## Whole texts -/

/-- An object whose members give a task is read as that task, and an object in which a field comes
twice or has a value that is not a quoted text is refused. -/
theorem ofJson?_of_isObject :
    (∀ (task : Task) (members : List Member) (text : String), IsObject members text.toList →
      task.IsGivenBy members → ofJson? text = some task) ∧
    ∀ (members : List Member) (text : String), IsObject members text.toList →
      Repeats members ∨ HasNonText members → ofJson? text = none := by
  constructor
  · intro task members text htext hgiven
    obtain ⟨read, hvalue, hread⟩ := htext.exists_readAs
    rw [ofJson?, hvalue]
    apply ofValue?_object
    · rw [List.forall_mem_map]
      exact fun member hmember => hgiven.agrees hmember (hread member hmember)
    · exact hgiven.nodup hread
    · intro field hfield
      obtain ⟨member, hmember, hnames⟩ := hgiven.complete field hfield
      exact List.mem_filterMap.2 ⟨read member, List.mem_map_of_mem hmember,
        hnames.fieldOf?_eq (hread member hmember)⟩
  · intro members text htext hrefused
    obtain ⟨read, hvalue, hread⟩ := htext.exists_readAs
    rw [ofJson?, hvalue]
    simp [ofValue?, foldlM_takeMember_eq_none hread hrefused]

/-- A member whose key is written as it stands. -/
private def plainMember (key value : String) (h : Json.ArePlain key.toList) : Member where
  key := key.toList
  value := value.toList
  keySpaces := {}
  valueSpaces := {}
  isQuotable_key := by
    obtain ⟨units, hwritten, -⟩ := h.denotes
    exact ⟨units, hwritten⟩

private theorem names_plainMember {key value : String} {h : Json.ArePlain key.toList}
    {field : Field} : Names (plainMember key value h) field ↔ key = field.key := by
  constructor
  · intro hnames
    exact String.toList_inj.1 (h.denotes.unique hnames)
  · rintro rfl
    exact h.denotes

/-- Pieces and brackets that form a text, told by evaluation. -/
private theorem encloses_of_eq {left right : Char} {pieces : List (List Char)} {text : List Char}
    (hpieces : pieces ≠ []) (h : text = left :: [','].intercalate pieces ++ [right]) :
    Json.Encloses left right pieces text :=
  h ▸ .pieces hpieces

/-- Two members of which the first is none of a task, though it holds what looks like one. -/
private def titleMembers : List Member :=
  [plainMember "x" "[true,\x7b\"id\":null\x7d]" (by decide),
    plainMember "title" "\"\\u0041\"" (by decide)]

/-- The escape in the value of the second member. -/
private theorem denotes_title : Denotes "\\u0041".toList "A".toList := by
  have hzero : Json.HexDigit '0' 0 := Or.inl rfl
  have hfour : Json.HexDigit '4' 4 := Or.inl rfl
  have hone : Json.HexDigit '1' 1 := Or.inl rfl
  exact (Json.WrittenUnit.hex hzero hzero hfour hone).denotes (.unit (by decide) .nil)

private theorem isObject_titleMembers :
    IsObject titleMembers
      " \x7b\"x\":[true,\x7b\"id\":null\x7d],\"title\":\"\\u0041\"\x7d".toList := by
  have hinner : Json.IsValue "\x7b\"id\":null\x7d".toList := by
    refine @Json.IsValue.object [plainMember "id" "null" (by decide)] _
      (encloses_of_eq (by simp) (by decide)) ?_
    exact List.forall_mem_singleton.2 (.scalar .null)
  have hx : Json.IsValue "[true,\x7b\"id\":null\x7d]".toList := by
    refine @Json.IsValue.array [⟨"true".toList, {}⟩, ⟨"\x7b\"id\":null\x7d".toList, {}⟩] _
      (encloses_of_eq (by simp) (by decide)) ?_
    exact List.forall_mem_cons.2 ⟨.scalar .true, List.forall_mem_singleton.2 hinner⟩
  have htitle : Json.IsValue (inQuotes "\\u0041".toList) := by
    obtain ⟨units, hwritten, -⟩ := denotes_title
    exact .text ⟨units, hwritten⟩
  refine ⟨⟨⟨[' '], [], by decide, by decide⟩, _, ?_, .pieces (by simp [titleMembers])⟩, ?_⟩
  · decide
  · exact List.forall_mem_cons.2 ⟨hx, List.forall_mem_singleton.2 htitle⟩

private theorem isGivenBy_titleMembers : IsGivenBy ⟨"", "", "A", "", ""⟩ titleMembers := by
  have hx : ∀ field, ¬ Names (plainMember "x" "[true,\x7b\"id\":null\x7d]" (by decide)) field := by
    intro field hnames
    have hkey := names_plainMember.1 hnames
    cases field <;> exact absurd hkey (by decide)
  constructor
  case key =>
    refine List.forall_mem_cons.2 ⟨⟨_, Json.ArePlain.denotes ?_⟩,
      List.forall_mem_singleton.2 ⟨_, Json.ArePlain.denotes ?_⟩⟩ <;> decide
  case text =>
    refine List.forall_mem_cons.2 ⟨fun field h => absurd h (hx field),
      List.forall_mem_singleton.2 fun field h => ?_⟩
    have hkey := names_plainMember.1 h
    cases field <;> first | exact absurd hkey (by decide) | exact ⟨_, rfl, denotes_title⟩
  case once =>
    rintro ⟨field, member, other, hsublist, hmember, -⟩
    cases hsublist.eq_of_length rfl
    exact hx field hmember
  case complete =>
    intro field hfield
    cases field <;> first
      | exact absurd rfl hfield
      | exact ⟨_, List.mem_cons_of_mem _ (List.mem_singleton_self _), names_plainMember.2 rfl⟩

/-- The title is found behind a value in which another field seems to come. An object is refused if
a field comes twice or is no text. -/
theorem ofJson?_of_isObject_title :
    ofJson? " \x7b\"x\":[true,\x7b\"id\":null\x7d],\"title\":\"\\u0041\"\x7d" =
        some ⟨"", "", "A", "", ""⟩ ∧
      ofJson? "\x7b\"id\":\"a\",\"id\":\"b\"\x7d" = none ∧
      ofJson? "\x7b\"id\":null\x7d" = none := by
  have hquoted : ∀ text, Json.ArePlain text → Json.IsValue (inQuotes text) := by
    intro text htext
    obtain ⟨units, hwritten, -⟩ := htext.denotes
    exact .text ⟨units, hwritten⟩
  refine ⟨?_, ?_, ?_⟩
  · exact ofJson?_of_isObject.1 _ titleMembers _ isObject_titleMembers isGivenBy_titleMembers
  · refine ofJson?_of_isObject.2
      [plainMember "id" "\"a\"" (by decide), plainMember "id" "\"b\"" (by decide)] _
      ⟨⟨{}, _, ?_, .pieces (by simp)⟩, ?_⟩ (Or.inl ⟨.id, _, _, .refl _, ?_, ?_⟩)
    · decide
    · exact List.forall_mem_cons.2
        ⟨hquoted ['a'] (by decide), List.forall_mem_singleton.2 (hquoted ['b'] (by decide))⟩
    · exact names_plainMember.2 rfl
    · exact names_plainMember.2 rfl
  · refine ofJson?_of_isObject.2 [plainMember "id" "null" (by decide)] _
      ⟨⟨{}, _, ?_, .pieces (by simp)⟩, ?_⟩ (Or.inr ⟨_, List.mem_singleton_self _, .id, ?_, ?_⟩)
    · decide
    · exact List.forall_mem_singleton.2 (.scalar .null)
    · exact names_plainMember.2 rfl
    · intro inner h
      cases h

end Agenda.Task
