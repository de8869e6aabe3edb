/-!
# Computations that may fail

What it means that a sequence of computations succeeds or fails.

- `bind_eq_ok_iff` and `bind_eq_error_iff`: a sequence succeeds if both parts do, and fails as the
  first part that does.
- `mapM_eq_error_iff`: along a list it is the first failure that counts.
- `mapError_eq_ok_iff`: what succeeds is not changed by another error.
-/

namespace Agenda

variable {ε ε' α β : Type}

theorem bind_eq_ok_iff {x : Except ε α} {f : α → Except ε β} {b : β} :
    x >>= f = .ok b ↔ ∃ a, x = .ok a ∧ f a = .ok b := by
  cases x with
  | error error => exact ⟨nofun, nofun⟩
  | ok a =>
    change f a = .ok b ↔ _
    refine ⟨fun h => ⟨a, rfl, h⟩, ?_⟩
    rintro ⟨a', ha, h⟩
    cases ha
    exact h

theorem bind_eq_error_iff {x : Except ε α} {f : α → Except ε β} {e : ε} :
    x >>= f = .error e ↔ x = .error e ∨ ∃ a, x = .ok a ∧ f a = .error e := by
  cases x with
  | error error =>
    change Except.error error = .error e ↔ _
    simp
  | ok a =>
    change f a = .error e ↔ _
    simp

/-- A computation along a list fails as the first value on which it fails. -/
theorem mapM_eq_error_iff {f : α → Except ε β} {list : List α} {e : ε} :
    list.mapM f = .error e ↔
      ∃ before a behind, list = before ++ a :: behind ∧ (∀ b ∈ before, ∃ v, f b = .ok v) ∧
        f a = .error e := by
  induction list with
  | nil =>
    rw [List.mapM_nil]
    refine ⟨nofun, ?_⟩
    rintro ⟨before, a, behind, hlist, -⟩
    exact absurd hlist.symm (by simp)
  | cons head tail ih =>
    rw [List.mapM_cons, bind_eq_error_iff]
    constructor
    · rintro (hhead | ⟨v, hhead, htail⟩)
      · exact ⟨[], head, tail, rfl, nofun, hhead⟩
      · -- The rest fails, and the value of the head does not matter.
        rcases bind_eq_error_iff.1 htail with htail | ⟨_, -, h⟩
        · obtain ⟨before, a, behind, rfl, hbefore, ha⟩ := ih.1 htail
          exact ⟨head :: before, a, behind, rfl,
            List.forall_mem_cons.2 ⟨⟨v, hhead⟩, hbefore⟩, ha⟩
        · cases h
    · rintro ⟨before, a, behind, hlist, hbefore, ha⟩
      cases before with
      | nil =>
        cases hlist
        exact Or.inl ha
      | cons b before =>
        cases hlist
        obtain ⟨⟨v, hv⟩, hbefore⟩ := List.forall_mem_cons.1 hbefore
        have htail := ih.2 ⟨before, a, behind, rfl, hbefore, ha⟩
        exact Or.inr ⟨v, hv, bind_eq_error_iff.2 (Or.inl htail)⟩

theorem mapError_eq_ok_iff {x : Except ε α} {f : ε → ε'} {a : α} :
    x.mapError f = .ok a ↔ x = .ok a := by
  cases x with
  | error error => exact ⟨nofun, nofun⟩
  | ok a' =>
    change Except.ok a' = .ok a ↔ _
    rw [Except.ok.injEq, Except.ok.injEq]

end Agenda
