import Mathlib.Data.List.MinMax
import Mathlib.Data.Prod.Lex

/-!
# A search that starts from a reserved cost

A loop looks for the best element of a list. It keeps the best element so far and its cost, starts
without an element at a cost that no element is supposed to exceed, and among equal costs compares a
second key through the best element. As long as there is none, an element with just the reserved cost
makes it look through a null pointer: `step` is undefined there.

`search_eq` says that this happens if and only if the first element has the reserved cost, and that
otherwise the loop ends with the first of the elements that are least in the lexicographic order.
-/

namespace ArgMin

variable {α κ τ : Type*} [LinearOrder κ] [LinearOrder τ] {cost : α → κ} {tie : α → τ} {top : κ} {l : List α}

/-- One step of the loop. -/
def step (cost : α → κ) (tie : α → τ) (p : Option α × κ) (a : α) : Option (Option α × κ) :=
  if cost a < p.2 then some (some a, cost a)
  else if cost a = p.2 then
    match p.1 with
    | none => none
    | some b => if tie a < tie b then some (some a, p.2) else some p
  else some p

/-- The order in which the loop compares. -/
def key (cost : α → κ) (tie : α → τ) (a : α) : κ ×ₗ τ := toLex (cost a, tie a)

theorem key_lt_iff {a b : α} :
    key cost tie a < key cost tie b ↔ cost a < cost b ∨ cost a = cost b ∧ tie a < tie b :=
  Prod.Lex.toLex_lt_toLex

/-- With a best element the step takes the better one of two. -/
theorem step_some (a b : α) : step cost tie (some b, cost b) a =
    some (if key cost tie a < key cost tie b then (some a, cost a) else (some b, cost b)) := by
  unfold step
  simp only [key_lt_iff]
  split_ifs with h₁ h₂ h₃ h₄ h₅ h₆ <;> grind

/-- From an element on, the loop finds the first least one. -/
theorem foldlM_some (cost : α → κ) (tie : α → τ) (l : List α) (b : α) : ∃ m, (b :: l).argmin (key cost tie) = some m ∧
    l.foldlM (step cost tie) (some b, cost b) = some (some m, cost m) := by
  induction l using List.reverseRecOn with
  | nil => exact ⟨b, rfl, rfl⟩
  | append_singleton l a ih =>
    obtain ⟨m, hm, hl⟩ := ih
    rw [List.foldlM_append, hl, ← List.cons_append, List.argmin_concat, hm]
    refine ⟨if key cost tie a < key cost tie m then a else m, ?_, ?_⟩
    · split_ifs with h <;> simp [h]
    · rw [Option.bind_eq_bind, Option.bind_some, List.foldlM_cons, step_some]
      split_ifs <;> rfl

/-- **The search is undefined if the first element has the reserved cost, and finds the first least element
otherwise.** -/
theorem search_eq (cost : α → κ) (tie : α → τ) (htop : ∀ a ∈ l, cost a ≤ top) :
    (l.foldlM (step cost tie) (none, top)).map Prod.fst =
      if ∀ a ∈ l.head?, cost a ≠ top then some (l.argmin (key cost tie)) else none := by
  cases l with
  | nil => simp
  | cons a l =>
    rw [List.foldlM_cons, step]
    by_cases ha : cost a = top
    · simp [ha]
    · have hlt : cost a < top := lt_of_le_of_ne (htop a List.mem_cons_self) ha
      obtain ⟨m, hm, hl⟩ := foldlM_some cost tie l a
      rw [if_pos hlt, Option.bind_eq_bind, Option.bind_some, hl, hm]
      simp [ha]

/-- What stands before the first least element is greater. -/
theorem exists_split {β : Type*} [LinearOrder β] {f : α → β} {m : α} (hm : m ∈ l.argmin f) :
    ∃ pre post, l = pre ++ m :: post ∧ ∀ a ∈ pre, f m < f a := by
  induction l with
  | nil => simp at hm
  | cons a l ih =>
    rw [List.argmin_cons] at hm
    cases hl : l.argmin f with
    | none =>
      rw [hl] at hm
      obtain rfl : a = m := by simpa using hm
      exact ⟨[], l, rfl, by simp⟩
    | some c =>
      rw [hl] at hm
      dsimp only at hm
      split_ifs at hm with hless
      · obtain rfl : c = m := by simpa using hm
        obtain ⟨pre, post, hsplit, hpre⟩ := ih hl
        exact ⟨a :: pre, post, by rw [hsplit]; rfl, List.forall_mem_cons.2 ⟨hless, hpre⟩⟩
      · obtain rfl : a = m := by simpa using hm
        exact ⟨[], l, rfl, by simp⟩

end ArgMin
