/-!
# Sorted sets

Finite sets kept as their strictly ascending list, so that equal sets are equal values and a set
is listed in order without sorting. Repetitions and the order of insertion leave no trace.

- `SortedSet.insert`, `SortedSet.ofList`: the ways to build a set.
- `SortedSet.mem_insert`, `SortedSet.mem_ofList`: what their members are.
- `SortedSet.eq_of_mem_iff`: a set is determined by its members.
-/

namespace Agenda

namespace SortedSet

variable {α : Type} [LT α]

/-- Put a value into its place in an ascending list; a value that is there stays as it is. -/
def insertAscending [DecidableLT α] (a : α) : List α → List α
  | [] => [a]
  | b :: rest =>
    if a < b then a :: b :: rest
    else if b < a then b :: insertAscending a rest
    else b :: rest

/-- A value of the new list is the inserted one or a value of the old list. -/
private theorem eq_or_mem_of_mem_insertAscending [DecidableLT α] {a x : α} {list : List α}
    (h : x ∈ insertAscending a list) : x = a ∨ x ∈ list := by
  induction list with
  | nil => simpa [insertAscending] using h
  | cons b rest ih =>
    unfold insertAscending at h
    split at h
    · simpa using h
    · split at h
      · rcases List.mem_cons.1 h with rfl | h
        · simp
        · rcases ih h with h | h <;> simp [h]
      · exact Or.inr h

/-- The values of the new list are the inserted one and the values of the old list. -/
private theorem mem_insertAscending [DecidableLT α]
    [Std.Trichotomous (· < · : α → α → Prop)] {a x : α} {list : List α} :
    x ∈ insertAscending a list ↔ x = a ∨ x ∈ list := by
  refine ⟨eq_or_mem_of_mem_insertAscending, fun h => ?_⟩
  induction list with
  | nil => simpa [insertAscending] using h
  | cons b rest ih =>
    unfold insertAscending
    split
    next => simpa using h
    next hab =>
      split
      next =>
        rcases h with h | h
        · exact List.mem_cons_of_mem _ (ih (Or.inl h))
        · rcases List.mem_cons.1 h with rfl | h
          · simp
          · exact List.mem_cons_of_mem _ (ih (Or.inr h))
      next hba =>
        rcases h with rfl | h
        · -- Neither is smaller, so the inserted value is the one that is there.
          have hxb : x = b := Std.Trichotomous.trichotomous x b hab hba
          simp [hxb]
        · exact h

/-- Insertion keeps an ascending list ascending. -/
private theorem pairwise_insertAscending [DecidableLT α]
    [Trans (· < · : α → α → Prop) (· < ·) (· < ·)] (a : α) {list : List α}
    (h : list.Pairwise (· < ·)) : (insertAscending a list).Pairwise (· < ·) := by
  induction list with
  | nil => simp [insertAscending]
  | cons b rest ih =>
    have hb := List.pairwise_cons.1 h
    unfold insertAscending
    split
    next hab =>
      refine List.pairwise_cons.2 ⟨fun x hx => ?_, h⟩
      rcases List.mem_cons.1 hx with rfl | hx
      · exact hab
      · exact Trans.trans hab (hb.1 x hx)
    next =>
      split
      next hba =>
        refine List.pairwise_cons.2 ⟨fun x hx => ?_, ih hb.2⟩
        rcases eq_or_mem_of_mem_insertAscending hx with rfl | hx
        · exact hba
        · exact hb.1 x hx
      next => exact h

/-- Two ascending lists with the same values are equal. -/
private theorem eq_of_mem_iff_of_ascending [Std.Asymm (· < · : α → α → Prop)] {l m : List α}
    (hl : l.Pairwise (· < ·)) (hm : m.Pairwise (· < ·)) (h : ∀ x, x ∈ l ↔ x ∈ m) : l = m := by
  induction l generalizing m with
  | nil =>
    cases m with
    | nil => rfl
    | cons b m => exact absurd ((h b).2 (by simp)) (by simp)
  | cons a l ih =>
    cases m with
    | nil => exact absurd ((h a).1 (by simp)) (by simp)
    | cons b m =>
      have ha := List.pairwise_cons.1 hl
      have hb := List.pairwise_cons.1 hm
      -- The first values are the smallest, so neither precedes the other.
      have hab : a = b := by
        rcases List.mem_cons.1 ((h a).1 (by simp)) with hab | ham
        · exact hab
        · rcases List.mem_cons.1 ((h b).2 (by simp)) with hba | hbl
          · exact hba.symm
          · exact absurd (hb.1 a ham) (Std.Asymm.asymm a b (ha.1 b hbl))
      subst hab
      have hirrefl : ¬ a < a := fun hlt => Std.Asymm.asymm a a hlt hlt
      congr 1
      refine ih ha.2 hb.2 fun x => ⟨fun hx => ?_, fun hx => ?_⟩
      · rcases List.mem_cons.1 ((h x).1 (List.mem_cons_of_mem a hx)) with rfl | hx'
        · exact absurd (ha.1 x hx) hirrefl
        · exact hx'
      · rcases List.mem_cons.1 ((h x).2 (List.mem_cons_of_mem a hx)) with rfl | hx'
        · exact absurd (hb.1 x hx) hirrefl
        · exact hx'

end SortedSet

/-- A finite set of ordered values, as its strictly ascending list. -/
@[ext]
structure SortedSet (α : Type) [LT α] where
  /-- The values in ascending order. -/
  toList : List α
  /-- Every value is smaller than all that follow it. -/
  ascending : toList.Pairwise (· < ·)

namespace SortedSet

variable {α : Type} [LT α]

instance [DecidableEq α] : DecidableEq (SortedSet α) := fun s t =>
  decidable_of_iff (s.toList = t.toList) ⟨SortedSet.ext, fun h => h ▸ rfl⟩

instance : Membership α (SortedSet α) := ⟨fun s a => a ∈ s.toList⟩

instance [DecidableEq α] (s : SortedSet α) (a : α) : Decidable (a ∈ s) :=
  inferInstanceAs (Decidable (a ∈ s.toList))

/-- The set without values. -/
def empty : SortedSet α := ⟨[], .nil⟩

/-- Whether the set has no values. -/
def isEmpty (s : SortedSet α) : Bool :=
  s.toList.isEmpty

/-- A set that is not empty has a member. -/
theorem isEmpty_eq_false_iff {s : SortedSet α} : s.isEmpty = false ↔ ∃ a, a ∈ s := by
  change s.toList.isEmpty = false ↔ ∃ a, a ∈ s.toList
  rw [List.isEmpty_eq_false_iff_exists_mem]

section Insert

variable [DecidableLT α] [Trans (· < · : α → α → Prop) (· < ·) (· < ·)]

/-- The set with a value added. -/
def insert (s : SortedSet α) (a : α) : SortedSet α :=
  ⟨insertAscending a s.toList, pairwise_insertAscending a s.ascending⟩

/-- The set of the values of a list. -/
def ofList (list : List α) : SortedSet α :=
  list.foldl insert empty

variable [Std.Trichotomous (· < · : α → α → Prop)]

/-- The members of a set with a value added are the value and the members of the set. -/
@[simp]
theorem mem_insert {s : SortedSet α} {a x : α} : x ∈ s.insert a ↔ x = a ∨ x ∈ s :=
  mem_insertAscending

/-- The members of the set of a list are the values of the list. -/
@[simp]
theorem mem_ofList {list : List α} {x : α} : x ∈ ofList list ↔ x ∈ list := by
  have key : ∀ s : SortedSet α, x ∈ list.foldl insert s ↔ x ∈ s ∨ x ∈ list := by
    induction list with
    | nil => simp
    | cons a rest ih =>
      intro s
      simp only [List.foldl_cons, ih, mem_insert, List.mem_cons]
      rw [or_comm (a := x = a), or_assoc]
  have hempty : x ∉ (empty : SortedSet α) := List.not_mem_nil
  rw [ofList, key empty]
  simp [hempty]

/-- The set of a list with a value is not empty. -/
theorem isEmpty_ofList_eq_false {list : List α} (h : list ≠ []) :
    (ofList list).isEmpty = false := by
  obtain ⟨a, ha⟩ := List.exists_mem_of_ne_nil list h
  exact isEmpty_eq_false_iff.2 ⟨a, mem_ofList.2 ha⟩

end Insert

/-- A set is determined by its members. -/
theorem eq_of_mem_iff [Std.Asymm (· < · : α → α → Prop)] {s t : SortedSet α}
    (h : ∀ x, x ∈ s ↔ x ∈ t) : s = t :=
  SortedSet.ext (eq_of_mem_iff_of_ascending s.ascending t.ascending h)

/-- A set is the set of its own list. -/
@[simp]
theorem ofList_toList [DecidableLT α] [Trans (· < · : α → α → Prop) (· < ·) (· < ·)]
    [Std.Trichotomous (· < · : α → α → Prop)] [Std.Asymm (· < · : α → α → Prop)]
    (s : SortedSet α) : ofList s.toList = s :=
  eq_of_mem_iff fun _ => mem_ofList

end SortedSet

end Agenda
