import Agenda.Proofs.Json.Reading
import Agenda.Task.Json
import Mathlib.Data.List.Nodup

/-!
# Tasks survive being written

A task that is written and read again is the same task. An empty field is not written and is empty
again when it is read, and the text of every other field is read character for character as it was.

- `Task.written`: the fields that are written.
- `Task.exists_scans_jsonChars`: the written text is an object with a member for each of them.
- `Task.ofValue?_object`: the objects that are read as the task.
- `Task.ofJson?_of_space`: the text is read as the task, also with white space behind it.
- `Task.json_round_trip`: all of this for every task, and different tasks have different texts.
-/

namespace Agenda.Task

variable {task : Task}

/-! ## Writing -/

/-- The fields that are written, which are those that are not empty. -/
def written (task : Task) : List Field :=
  Field.all.filter fun field => task.get field ≠ ""

/-- No field is written twice. -/
theorem nodup_written (task : Task) : task.written.Nodup :=
  List.Nodup.filter _ (by decide)

theorem mem_written {field : Field} : field ∈ task.written ↔ task.get field ≠ "" := by
  have hall : field ∈ Field.all := by cases field <;> decide
  simp [written, hall]

/-- The member of an object that has the name and the text of a field. -/
def IsMember (task : Task) (field : Field) (member : List Json.CodeUnit × Json.Value) : Prop :=
  Json.CodeUnit.decode member.1 = some field.key.toList ∧
    member.2.chars? = some (task.get field).toList

/-- The written form of a member. -/
private def memberChars (task : Task) (field : Field) : List Char :=
  Json.quote field.key.toList ++ ':' :: Json.quote (task.get field).toList

private theorem filterMap_member? (task : Task) :
    Field.all.filterMap task.member? = task.written.map task.memberChars := by
  rw [written, ← List.filterMap_eq_map, List.filterMap_filter]
  refine List.filterMap_congr fun field _ => ?_
  by_cases hempty : task.get field = "" <;> simp [member?, memberChars, hempty]

/-- A written member is read as one that has the name and the text of its field. -/
private theorem exists_scans_memberChars (task : Task) (field : Field) :
    ∃ tokens member, Json.ScansBefore (task.memberChars field) tokens ∧
      Json.FormsMember tokens member ∧ task.IsMember field member := by
  obtain ⟨key, hkey, hscanKey⟩ := Json.exists_scans_quote field.key.toList
  obtain ⟨text, htext, hscanText⟩ := Json.exists_scans_quote (task.get field).toList
  have hcolon : Json.Scans [':'] [.colon] := Json.scans_mark rfl
  exact ⟨_, (key, .text text), (hscanKey.append (hcolon.append hscanText)).scansBefore,
    ⟨[.text text], rfl, Json.forms_text text⟩, hkey, htext⟩

/-- A written task is an object. Its members are those of the fields that are not empty. -/
theorem exists_scans_jsonChars (task : Task) :
    ∃ tokens members, Json.Scans task.jsonChars tokens ∧ Json.Forms tokens (.object members) ∧
      List.Forall₂ task.IsMember task.written members := by
  obtain ⟨tokens, member, hscans, hforms, hmember⟩ :=
    Json.exists_scans_pieces fun field (_ : field ∈ task.written) =>
      task.exists_scans_memberChars field
  refine ⟨_, task.written.map member, ?_, Json.forms_object hforms,
    List.forall₂_map_right_iff.2 (List.forall₂_same.2 hmember)⟩
  rw [jsonChars, filterMap_member?]
  exact Json.scans_enclosed rfl rfl hscans

/-! ## Reading -/

theorem ofKey?_key (field : Field) : Field.ofKey? field.key = some field := by
  cases field <;> decide

/-- The field that a member of an object names, if it names one. -/
def fieldOf? (member : List Json.CodeUnit × Json.Value) : Option Field := do
  let name ← Json.CodeUnit.decode member.1
  Field.ofKey? (String.ofList name)

/-- A member of an object says nothing but what the task says: it names no field, or else it has
the text of the field that it names. -/
structure Agrees (task : Task) (member : List Json.CodeUnit × Json.Value) : Prop where
  /-- The key of the member has characters. -/
  key : ∃ name, Json.CodeUnit.decode member.1 = some name
  /-- The value is the text of the field. -/
  text {field : Field} (h : fieldOf? member = some field) :
    member.2.chars? = some (task.get field).toList

/-- A member that agrees with the task is taken, unless its field came before. -/
private theorem Agrees.takeMember {found : List (Field × String)}
    {member : List Json.CodeUnit × Json.Value} (h : task.Agrees member)
    (hnew : ∀ field, fieldOf? member = some field → field ∉ found.map Prod.fst) :
    takeMember found member =
      some (found ++ (fieldOf? member).toList.map fun field => (field, task.get field)) := by
  obtain ⟨name, hname⟩ := h.key
  have hnames : fieldOf? member = Field.ofKey? (String.ofList name) := by simp [fieldOf?, hname]
  cases hfield : Field.ofKey? (String.ofList name) with
  | none => simp [Task.takeMember, hname, hnames, hfield]
  | some field =>
    rw [hfield] at hnames
    have hany : found.any (·.1 = field) = false := by
      rw [List.any_eq_false]
      rintro pair hpair hfirst
      exact hnew field hnames (decide_eq_true_iff.1 hfirst ▸ List.mem_map_of_mem hpair)
    simp [Task.takeMember, hname, hnames, hfield, hany, h.text hnames]

/-- Members that agree with the task and name different fields are taken one after the other. -/
theorem foldlM_takeMember {found : List (Field × String)}
    {members : List (List Json.CodeUnit × Json.Value)}
    (h : ∀ member ∈ members, task.Agrees member)
    (hnodup : (found.map Prod.fst ++ members.filterMap fieldOf?).Nodup) :
    members.foldlM takeMember found =
      some (found ++ (members.filterMap fieldOf?).map fun field => (field, task.get field)) := by
  -- Along the members, whatever fields were taken before: none of them comes again.
  induction members generalizing found with
  | nil => simp
  | cons member members ih =>
    have hmember := h member List.mem_cons_self
    have hrest : ∀ other ∈ members, task.Agrees other :=
      fun other hother => h other (List.mem_cons_of_mem member hother)
    cases hfield : fieldOf? member with
    | none =>
      rw [List.filterMap_cons_none hfield] at hnodup ⊢
      rw [List.foldlM_cons, hmember.takeMember (by simp [hfield])]
      simpa [hfield] using ih hrest hnodup
    | some field =>
      rw [List.filterMap_cons_some hfield] at hnodup ⊢
      have hnew : field ∉ found.map Prod.fst := by
        intro hfound
        exact (List.nodup_append.1 hnodup).2.2 field hfound field List.mem_cons_self rfl
      have hnodup' : ((found ++ [(field, task.get field)]).map Prod.fst ++
          members.filterMap fieldOf?).Nodup := by
        simpa using hnodup
      rw [List.foldlM_cons, hmember.takeMember (by simpa [hfield] using hnew)]
      simpa [hfield] using ih hrest hnodup'

/-- The member of a field agrees with the task and names the field. -/
private theorem IsMember.agrees {field : Field} {member : List Json.CodeUnit × Json.Value}
    (h : task.IsMember field member) :
    task.Agrees member ∧ fieldOf? member = some field := by
  obtain ⟨hkey, htext⟩ := h
  have hfield : fieldOf? member = some field := by simp [fieldOf?, hkey, ofKey?_key]
  refine ⟨⟨⟨_, hkey⟩, fun {other} hother => ?_⟩, hfield⟩
  cases hfield.symm.trans hother
  exact htext

/-- The same for any number of fields. -/
private theorem agrees_of_forall₂ {fields : List Field}
    {members : List (List Json.CodeUnit × Json.Value)}
    (h : List.Forall₂ task.IsMember fields members) :
    (∀ member ∈ members, task.Agrees member) ∧ members.filterMap fieldOf? = fields := by
  induction h with
  | nil => simp
  | cons hmember _ ih =>
    obtain ⟨hagrees, hfield⟩ := hmember.agrees
    obtain ⟨hall, hfields⟩ := ih
    exact ⟨List.forall_mem_cons.2 ⟨hagrees, hall⟩, by simp [hfield, hfields]⟩

/-- The fields that are read have their text, and the others are as they were before. -/
private theorem get_foldl_set (fields : List Field) (start : Task) (field : Field) :
    ((fields.map fun field => (field, task.get field)).foldl
        (fun task (field, text) => task.set field text) start).get field =
      if field ∈ fields then task.get field else start.get field := by
  induction fields generalizing start with
  | nil => rfl
  | cons first fields ih =>
    rw [List.map_cons, List.foldl_cons, ih, get_set]
    by_cases hrest : field ∈ fields
    · simp [hrest]
    · by_cases hfirst : field = first
      · simp [hfirst]
      · simp [hrest, hfirst]

/-- A task is determined by the texts of its fields. -/
theorem ext_get {task other : Task} (h : ∀ field, task.get field = other.get field) :
    task = other :=
  Task.ext (h .id) (h .date) (h .title) (h .comment) (h .rule)

/-- The texts of some fields make the task if all other fields are empty. -/
theorem ofFields_map_get {fields : List Field}
    (h : ∀ field, task.get field ≠ "" → field ∈ fields) :
    ofFields (fields.map fun field => (field, task.get field)) = task := by
  apply ext_get
  intro field
  rw [ofFields, get_foldl_set]
  split
  next => rfl
  next hmissing =>
    have hempty : task.get field = "" := by
      by_contra hne
      exact hmissing (h field hne)
    rw [hempty]
    cases field <;> rfl

/-- An object makes the task if its members agree with the task, name no field twice and name every
field that is not empty. -/
theorem ofValue?_object {members : List (List Json.CodeUnit × Json.Value)}
    (h : ∀ member ∈ members, task.Agrees member) (hnodup : (members.filterMap fieldOf?).Nodup)
    (hfields : ∀ field, task.get field ≠ "" → field ∈ members.filterMap fieldOf?) :
    ofValue? (.object members) = some task := by
  have hfound := @foldlM_takeMember task [] members h hnodup
  rw [ofValue?, hfound, Option.map_some, List.nil_append, ofFields_map_get hfields]

/-- A written task, perhaps with white space behind it, is read as the task. -/
theorem ofJson?_of_space (task : Task) {space : List Char}
    (h : space.all Json.Token.isSpace = true) :
    ofJson? (String.ofList (task.jsonChars ++ space)) = some task := by
  obtain ⟨tokens, members, hscan, hforms, hmembers⟩ := task.exists_scans_jsonChars
  have hvalue : Json.Value.ofChars? (task.jsonChars ++ space) = some (.object members) := by
    apply Json.ofChars?_of_scans (hscan.append (Json.scans_space h))
    rwa [List.append_nil]
  obtain ⟨hagrees, hfields⟩ := agrees_of_forall₂ hmembers
  rw [ofJson?, String.toList_ofList, hvalue]
  apply ofValue?_object hagrees
  · rw [hfields]
    exact task.nodup_written
  · intro field hfield
    rwa [hfields, mem_written]

theorem ofJson?_toJson (task : Task) : ofJson? task.toJson = some task := by
  have h := @ofJson?_of_space task [] rfl
  rwa [List.append_nil] at h

/-- A task that is written is an object whose members are its fields that are not empty, each with
its name and its text. Read again it is the same task, so different tasks are written differently. -/
theorem json_round_trip :
    (∀ task : Task, ∃ members, Json.Value.ofChars? task.toJson.toList = some (.object members) ∧
      List.Forall₂ task.IsMember task.written members) ∧
    (∀ task : Task, ofJson? task.toJson = some task) ∧
    Function.Injective toJson := by
  refine ⟨fun task => ?_, ofJson?_toJson, fun task other h => ?_⟩
  · obtain ⟨tokens, members, hscan, hforms, hmembers⟩ := task.exists_scans_jsonChars
    refine ⟨members, ?_, hmembers⟩
    rw [toJson, String.toList_ofList]
    exact Json.ofChars?_of_scans hscan hforms
  · have hread := ofJson?_toJson task
    rw [h, ofJson?_toJson other] at hread
    exact (Option.some.inj hread).symm

/-- Quotes, backslashes and control characters are escaped, all else is written as it stands, and
what is empty is left out. -/
example : toJson ⟨"", "", "\"\\\n\x01/é😀", "", "y"⟩ =
    "\x7b\"title\":\"\\\"\\\\\\n\\u0001/é😀\",\"repeat\":\"y\"\x7d" := by
  decide

end Agenda.Task
