import IrqBalance.Lib.Sums
import Mathlib.Logic.Function.Basic

/-!
# Items that enter a region

Items move between positions, and some positions make up a region `H` that an item does not leave again. An
account that gets the weight of every item that moves into the region holds in the end what it held at the start
and the weights of the items that have entered (`sum_entered_enter`, `sum_entered_pass`).
-/

namespace Ledger

variable {α P M : Type*} {H : P → Prop} [DecidablePred H] {w : α → M} {l : List α} {home₀ home : α → P} {i : α} {c : P}

/-- The items that were outside of the region at the start, and are inside. -/
def entered (H : P → Prop) [DecidablePred H] (l : List α) (home₀ home : α → P) : List α :=
  l.filter fun i => H (home i) ∧ ¬H (home₀ i)

theorem mem_entered : i ∈ entered H l home₀ home ↔ i ∈ l ∧ H (home i) ∧ ¬H (home₀ i) := by
  simp [entered]

theorem entered_refl (l : List α) (home₀ : α → P) : entered H l home₀ home₀ = [] := by
  simp [entered]

variable [DecidableEq α]

/-- An item moves within the region, or outside of it. -/
theorem entered_pass (h : H c ↔ H (home i)) :
    entered H l home₀ (Function.update home i c) = entered H l home₀ home := by
  refine List.filter_congr fun j _ => ?_
  by_cases hj : j = i
  · subst hj
    rw [Function.update_self]
    exact decide_eq_decide.2 (and_congr_left' h)
  · rw [Function.update_of_ne hj]

/-- An item moves into the region. -/
theorem entered_enter (hl : l.Nodup) (hi : i ∈ l) (hout₀ : ¬H (home₀ i)) (hout : ¬H (home i)) (hc : H c) :
    (entered H l home₀ (Function.update home i c)).Perm (i :: entered H l home₀ home) := by
  have hnot : i ∉ entered H l home₀ home := fun hmem => hout (mem_entered.1 hmem).2.1
  refine (List.perm_ext_iff_of_nodup (hl.filter _) (List.nodup_cons.2 ⟨hnot, hl.filter _⟩)).2 fun j => ?_
  have hiff : j ∈ l ∧ H (Function.update home i c j) ∧ ¬H (home₀ j) ↔ j = i ∨ j ∈ l ∧ H (home j) ∧ ¬H (home₀ j) := by
    by_cases hj : j = i
    · subst hj
      rw [Function.update_self]
      exact iff_of_true ⟨hi, hc, hout₀⟩ (Or.inl rfl)
    · rw [Function.update_of_ne hj]
      exact (or_iff_right hj).symm
  rw [List.mem_cons, mem_entered]
  exact mem_entered.trans hiff

section Exact

variable [AddCommMonoid M]

/-- **A move into the region adds the weight of the item.** -/
theorem sum_entered_enter (hl : l.Nodup) (hi : i ∈ l) (hout₀ : ¬H (home₀ i)) (hout : ¬H (home i)) (hc : H c) :
    ((entered H l home₀ (Function.update home i c)).map w).sum = ((entered H l home₀ home).map w).sum + w i := by
  rw [((entered_enter hl hi hout₀ hout hc).map w).sum_eq, List.map_cons, List.sum_cons, add_comm]

/-- **Other moves add nothing.** -/
theorem sum_entered_pass (h : H c ↔ H (home i)) :
    ((entered H l home₀ (Function.update home i c)).map w).sum = ((entered H l home₀ home).map w).sum := by
  rw [entered_pass h]

end Exact

/-- A move that does not lead out of the region adds nothing or the weight of the item. -/
theorem sum_entered_mono {w : α → ℕ} (hl : l.Nodup) (hi : i ∈ l) (hstay : H (home i) → H c)
    (hstay₀ : H (home₀ i) → H (home i)) :
    ((entered H l home₀ home).map w).sum ≤ ((entered H l home₀ (Function.update home i c)).map w).sum := by
  by_cases hin : H (home i)
  · exact (sum_entered_pass (iff_of_true (hstay hin) hin)).ge
  · by_cases hc : H c
    · rw [sum_entered_enter hl hi (fun h => hin (hstay₀ h)) hin hc]
      exact Nat.le_add_right _ _
    · exact (sum_entered_pass (iff_of_false hc hin)).ge

end Ledger
