import Mathlib.Order.Bounds.Basic

/-!
# A running minimum with a reserved value

A loop that keeps the least element seen so far in one variable, and marks "nothing seen yet" with the
least value `z` of the type. An element equal to `z` makes the loop forget what came before, so the
result is the minimum of the elements behind the last `z`.
-/

namespace RunningMin

variable {α : Type*} [LinearOrder α] {z m x : α} {l : List α}

/-- One step of the loop. -/
def step (z m x : α) : α := if m = z ∨ x < m then x else m

theorem step_ne (hx : x ≠ z) : step z m x ≠ z := by
  unfold step
  split_ifs with h
  · exact hx
  · exact fun e => h (Or.inl e)

theorem step_le (hm : m ≠ z) : step z m x ≤ m ∧ step z m x ≤ x ∧ (step z m x = m ∨ step z m x = x) := by
  unfold step
  split_ifs with h
  · exact ⟨(h.resolve_left hm).le, le_refl x, Or.inr rfl⟩
  · exact ⟨le_refl m, not_lt.1 fun hlt => h (Or.inr hlt), Or.inl rfl⟩

/-- The reserved value makes the loop forget. -/
theorem step_self (hz : ∀ x, z ≤ x) : step z m z = z := by
  unfold step
  split_ifs with h
  · rfl
  · rw [not_or, not_lt] at h
    exact le_antisymm h.2 (hz m)

/-- From an element on, without the reserved value, the loop finds the minimum. -/
theorem foldl_isLeast (hm : m ≠ z) (hl : z ∉ l) :
    IsLeast {x | x ∈ m :: l} (l.foldl (step z) m) := by
  induction l generalizing m with
  | nil => simp [IsLeast, lowerBounds]
  | cons y l ih =>
    simp only [List.mem_cons, not_or] at hl
    obtain ⟨hle, hley, hcases⟩ := step_le (x := y) hm
    obtain ⟨hmem, hlow⟩ := ih (step_ne (Ne.symm hl.1)) hl.2
    have hstep : l.foldl (step z) (step z m y) ≤ step z m y := hlow List.mem_cons_self
    refine ⟨?_, ?_⟩
    · rcases List.mem_cons.1 hmem with h | h
      · rw [List.foldl_cons, h]
        rcases hcases with h' | h' <;> simp [h']
      · simp [h]
    · intro x hx
      rcases List.mem_cons.1 hx with rfl | hx
      · exact hstep.trans hle
      · rcases List.mem_cons.1 hx with rfl | hx
        · exact hstep.trans hley
        · exact hlow (List.mem_cons_of_mem _ hx)

/-- **The loop finds the minimum if and only if the reserved value comes last or does not occur.** -/
theorem isLeast_iff (hz : ∀ x, z ≤ x) (h : l ≠ []) :
    IsLeast {x | x ∈ l} (l.foldl (step z) z) ↔ l.getLast h = z ∨ z ∉ l := by
  constructor
  · intro hleast
    by_contra hnot
    rw [not_or, not_not] at hnot
    obtain ⟨hlast, hmem⟩ := hnot
    -- the last step leaves an element other than `z`, which is not below `z`
    have hne : l.foldl (step z) z ≠ z := by
      rw [← List.dropLast_concat_getLast h, List.foldl_append]
      exact step_ne hlast
    exact hne (le_antisymm (hleast.2 hmem) (hz _))
  · rintro (hlast | hnot)
    · have hfold : l.foldl (step z) z = z := by
        rw [← List.dropLast_concat_getLast h, List.foldl_append, hlast]
        exact step_self hz
      rw [hfold]
      exact ⟨hlast ▸ List.getLast_mem h, fun x _ => hz x⟩
    · cases l with
      | nil => exact absurd rfl h
      | cons x l =>
        simp only [List.mem_cons, not_or] at hnot
        have hfirst : step z z x = x := if_pos (Or.inl rfl)
        rw [List.foldl_cons, hfirst]
        exact foldl_isLeast (Ne.symm hnot.1) hnot.2

end RunningMin
