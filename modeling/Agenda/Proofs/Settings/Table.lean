import Agenda.Settings.Value
import Mathlib.Data.List.Nodup

/-!
# Tables of settings

A table is changed key by key. A change concerns the value of its own key only, and of a table that
is laid over another one the last entry for a key counts.

- `Value.find?_changeKey`: what a change under a key leaves under each key.
- `Value.keys_changeKey`: it adds the key if it is new, so that no key comes up twice.
- `Value.find?_overlayEntries`: what entries laid over a table leave under a key.
-/

namespace Agenda.Settings

namespace Value

/-! ## Keys -/

/-- The keys of a table; anything else has none. -/
def keys (tree : Value) : List String :=
  tree.entries.map Prod.fst

/-- The value is a table. -/
def IsTable (value : Value) : Prop :=
  ∃ entries, value = table entries

@[simp]
theorem entries_table (entries : List (String × Value)) : (table entries).entries = entries := rfl

@[simp]
theorem find?_table (entries : List (String × Value)) (key : String) :
    (table entries).find? key = entries.lookup key := rfl

theorem overlay_of_not_isTable {value : Value} (h : ¬ value.IsTable) (below : Value) :
    value.overlay below = value := by
  cases value with
  | table entries => exact absurd ⟨entries, rfl⟩ h
  | _ => simp only [overlay]

/-- What has a value under a key has the key. -/
private theorem isSome_lookup_iff {entries : List (String × Value)} {key : String} :
    (entries.lookup key).isSome = true ↔ key ∈ entries.map Prod.fst := by
  rw [List.lookup_isSome_iff, List.mem_map]
  exact exists_congr fun entry => and_congr_right fun _ => beq_iff_eq.trans eq_comm

private theorem lookup_eq_none {entries : List (String × Value)} {key : String}
    (h : key ∉ entries.map Prod.fst) : entries.lookup key = none := by
  rw [← Option.not_isSome_iff_eq_none]
  exact mt isSome_lookup_iff.1 h

/-- Other values in the places of those under a key change what is found under this key only. -/
private theorem lookup_replaced (key : String) (change : Value → Value)
    (entries : List (String × Value)) (other : String) :
    (entries.map fun entry => if entry.1 = key then (key, change entry.2) else entry).lookup other =
      (entries.lookup other).map (if other = key then change else id) := by
  induction entries with
  | nil => rfl
  | cons entry rest ih =>
    obtain ⟨k, value⟩ := entry
    by_cases hk : k = key <;> by_cases hother : other = k <;>
      simp_all [List.lookup_cons, beq_false_of_ne]

private theorem keys_replaced (key : String) (change : Value → Value)
    (entries : List (String × Value)) :
    (entries.map fun entry => if entry.1 = key then (key, change entry.2) else entry).map Prod.fst =
      entries.map Prod.fst := by
  rw [List.map_map]
  refine List.map_congr_left fun entry _ => ?_
  by_cases h : entry.1 = key
  · rw [Function.comp_apply, if_pos h, h]
  · rw [Function.comp_apply, if_neg h]

/-- The value of a key that is there is changed in its place. -/
private theorem changeKey_of_mem {tree : Value} {key : String} (h : key ∈ tree.keys)
    (change : Value → Value) :
    tree.changeKey key change = table (tree.entries.map fun entry =>
      if entry.1 = key then (key, change entry.2) else entry) :=
  if_pos (isSome_lookup_iff.2 h)

/-- A new key is added behind the others. -/
private theorem changeKey_of_not_mem {tree : Value} {key : String} (h : key ∉ tree.keys)
    (change : Value → Value) :
    tree.changeKey key change = table (tree.entries ++ [(key, change absent)]) :=
  if_neg (mt isSome_lookup_iff.1 h)

/-- What has been changed under a key is a table. -/
theorem isTable_changeKey (tree : Value) (key : String) (change : Value → Value) :
    (tree.changeKey key change).IsTable := by
  by_cases h : key ∈ tree.keys
  · exact ⟨_, changeKey_of_mem h change⟩
  · exact ⟨_, changeKey_of_not_mem h change⟩

/-- A change under a key concerns the value of this key only. -/
theorem find?_changeKey (tree : Value) (key other : String) (change : Value → Value) :
    (tree.changeKey key change).find? other =
      if other = key then some (change ((tree.find? key).getD absent)) else tree.find? other := by
  by_cases h : key ∈ tree.keys
  · rw [changeKey_of_mem h, find?_table, lookup_replaced]
    by_cases hother : other = key
    · obtain ⟨value, hvalue⟩ := Option.isSome_iff_exists.1 (isSome_lookup_iff.2 h)
      rw [if_pos hother, if_pos hother, hother, find?, hvalue]
      rfl
    · rw [if_neg hother, if_neg hother, Option.map_id]
      rfl
  · rw [changeKey_of_not_mem h, find?_table, List.lookup_append]
    by_cases hother : other = key
    · rw [if_pos hother, hother, find?, lookup_eq_none h]
      simp
    · rw [if_neg hother]
      simp [List.lookup_cons, beq_false_of_ne hother, find?]

/-- A change under a key adds the key if it is new. -/
theorem keys_changeKey (tree : Value) (key : String) (change : Value → Value) :
    (tree.changeKey key change).keys =
      if key ∈ tree.keys then tree.keys else tree.keys ++ [key] := by
  by_cases h : key ∈ tree.keys
  · rw [if_pos h, changeKey_of_mem h]
    exact keys_replaced key change tree.entries
  · rw [if_neg h, changeKey_of_not_mem h]
    exact List.map_append

/-- No key comes up twice. -/
theorem nodup_keys_changeKey {tree : Value} (h : tree.keys.Nodup) (key : String)
    (change : Value → Value) : (tree.changeKey key change).keys.Nodup := by
  rw [keys_changeKey]
  split
  next => exact h
  next hnew => exact List.concat_eq_append ▸ List.Nodup.concat hnew h

/-! ## Tables laid over a table -/

/-- The values under a key, in order. -/
def valuesUnder (key : String) (entries : List (String × Value)) : List Value :=
  entries.flatMap fun entry => if entry.1 = key then [entry.2] else []

theorem valuesUnder_cons (key : String) (entry : String × Value) (rest : List (String × Value)) :
    valuesUnder key (entry :: rest) =
      (if entry.1 = key then [entry.2] else []) ++ valuesUnder key rest :=
  List.flatMap_cons

theorem isTable_overlayEntries {below : Value} (h : below.IsTable)
    (entries : List (String × Value)) : (overlayEntries entries below).IsTable := by
  induction entries generalizing below with
  | nil => simpa only [overlayEntries] using h
  | cons entry rest ih =>
    obtain ⟨key, value⟩ := entry
    simp only [overlayEntries]
    exact ih (isTable_changeKey below key _)

theorem nodup_keys_overlayEntries {below : Value} (h : below.keys.Nodup)
    (entries : List (String × Value)) : (overlayEntries entries below).keys.Nodup := by
  induction entries generalizing below with
  | nil => simpa only [overlayEntries] using h
  | cons entry rest ih =>
    obtain ⟨key, value⟩ := entry
    simp only [overlayEntries]
    exact ih (nodup_keys_changeKey h key _)

/-- The last entry for a key counts, or else what is below. -/
theorem find?_overlayEntries {key : String} {entries : List (String × Value)}
    (h : ∀ value ∈ valuesUnder key entries, ¬ value.IsTable) (below : Value) :
    (overlayEntries entries below).find? key =
      (valuesUnder key entries).getLast?.or (below.find? key) := by
  induction entries generalizing below with
  | nil => simp only [overlayEntries, valuesUnder, List.flatMap_nil, List.getLast?_nil,
      Option.none_or]
  | cons entry rest ih =>
    obtain ⟨other, value⟩ := entry
    rw [valuesUnder_cons] at h ⊢
    simp only [overlayEntries]
    rw [ih fun later hlater => h later (List.mem_append_right _ hlater), find?_changeKey,
      List.getLast?_append, Option.or_assoc]
    congr 1
    by_cases hkey : other = key
    · have hvalue : ¬ value.IsTable := h value (by simp [hkey])
      rw [if_pos hkey.symm, if_pos hkey, overlay_of_not_isTable hvalue]
      rfl
    · rw [if_neg (Ne.symm hkey), if_neg hkey]
      rfl

end Value

end Agenda.Settings
