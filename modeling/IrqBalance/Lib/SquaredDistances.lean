import Mathlib.Algebra.BigOperators.Ring.List
import Mathlib.Algebra.Order.Ring.Int
import Mathlib.Tactic.Linarith
import Mathlib.Tactic.Ring

/-!
# Sums of squared distances

The numbers of a list between 0 and a bound `m`, and the sum of their squared distances to a number `a`.
Times the number `n` of elements, this sum is at most `⌊n / 2⌋ * ⌈n / 2⌉ * m ^ 2`, up to the error of `a`
as their mean (`length_mul_sumSq_le`): the sum is convex in each of the elements, so it is largest when
each of them is 0 or `m`. Half the elements at 0 and half at `m` reach that, wherever `a` is
(`le_sumSq_halves`).
-/

namespace SquaredDistances

variable {l : List ℤ} {a c m n : ℤ}

/-- The sum of the squared distances to `a`. -/
def sumSq (a : ℤ) (l : List ℤ) : ℤ := (l.map fun x => (x - a) ^ 2).sum

@[simp] theorem sumSq_nil (a : ℤ) : sumSq a [] = 0 := rfl

@[simp] theorem sumSq_cons (a x : ℤ) (l : List ℤ) : sumSq a (x :: l) = (x - a) ^ 2 + sumSq a l := by
  simp [sumSq]

theorem sumSq_append (a : ℤ) (l l' : List ℤ) : sumSq a (l ++ l') = sumSq a l + sumSq a l' := by
  simp [sumSq]

theorem sumSq_replicate (a x : ℤ) (k : ℕ) : sumSq a (List.replicate k x) = k * (x - a) ^ 2 := by
  simp [sumSq]

theorem sumSq_nonneg (a : ℤ) (l : List ℤ) : 0 ≤ sumSq a l := by
  induction l with
  | nil => simp
  | cons x l ih =>
    rw [sumSq_cons]
    positivity

/-- The distances to `a`, from those to 0. -/
theorem sumSq_eq (a : ℤ) (l : List ℤ) : sumSq a l = sumSq 0 l - 2 * a * l.sum + l.length * a ^ 2 := by
  induction l with
  | nil => simp
  | cons x l ih =>
    simp only [sumSq_cons, List.sum_cons, List.length_cons, ih]
    push_cast
    ring

/-- The error of `a` as the mean enters as a square. -/
theorem length_mul_sumSq (a : ℤ) (l : List ℤ) :
    l.length * sumSq a l = l.length * sumSq 0 l - l.sum ^ 2 + (l.sum - l.length * a) ^ 2 := by
  rw [sumSq_eq]
  ring

/-! ### The largest sum -/

/-- `n * x ^ 2 - (c + x) ^ 2` is largest at an end of the interval from 0 to `m`. -/
theorem convex_le {x : ℤ} (hn : 1 ≤ n) (hx : 0 ≤ x) (hxm : x ≤ m) :
    n * x ^ 2 - (c + x) ^ 2 ≤ - c ^ 2 ∨ n * x ^ 2 - (c + x) ^ 2 ≤ n * m ^ 2 - (c + m) ^ 2 := by
  rcases le_total ((n - 1) * x) (2 * c) with hleft | hright
  · left
    have hprod : 0 ≤ x * (2 * c - (n - 1) * x) := mul_nonneg hx (by linarith)
    linarith [hprod]
  · right
    have hmono : (n - 1) * x ≤ (n - 1) * (m + x) := mul_le_mul_of_nonneg_left (by linarith) (by linarith)
    have hprod : 0 ≤ (m - x) * ((n - 1) * (m + x) - 2 * c) := mul_nonneg (by linarith) (by linarith)
    linarith [hprod]

/-- The elements may be moved to the ends of the interval. -/
theorem exists_vertex (hn : 1 ≤ n) (hl : ∀ x ∈ l, 0 ≤ x ∧ x ≤ m) : ∀ c : ℤ, ∃ k : ℕ, k ≤ l.length ∧
    n * sumSq 0 l - (c + l.sum) ^ 2 ≤ n * (k * m ^ 2) - (c + k * m) ^ 2 := by
  induction l with
  | nil => intro c; exact ⟨0, Nat.le_refl 0, by simp⟩
  | cons x l ih =>
    intro c
    obtain ⟨⟨hx, hxm⟩, hl⟩ := List.forall_mem_cons.1 hl
    obtain ⟨k, hk, hle⟩ := ih hl (c + x)
    rw [sumSq_cons, List.sum_cons, List.length_cons]
    rcases convex_le (c := c + k * m) hn hx hxm with hzero | hfull
    · refine ⟨k, by omega, ?_⟩
      linarith [hle, hzero]
    · refine ⟨k + 1, by omega, ?_⟩
      push_cast
      linarith [hle, hfull]

/-- The two parts of a number have their largest product when they are halves. -/
theorem mul_sub_le_halves (k n : ℕ) : (n * k - k ^ 2 : ℤ) ≤ (n / 2 : ℕ) * ((n + 1) / 2 : ℕ) := by
  obtain ⟨h, rfl | rfl⟩ := n.even_or_odd'
  · have hhalf : 2 * h / 2 = h ∧ (2 * h + 1) / 2 = h := by omega
    rw [hhalf.1, hhalf.2]
    have hsq : (0 : ℤ) ≤ (h - k) ^ 2 := sq_nonneg _
    push_cast
    linarith [hsq]
  · have hhalf : (2 * h + 1) / 2 = h ∧ (2 * h + 1 + 1) / 2 = h + 1 := by omega
    rw [hhalf.1, hhalf.2]
    -- a product of neighbours
    have hprod : (0 : ℤ) ≤ (h - k) * (h + 1 - k) := by
      rcases Nat.lt_or_ge h k with hlt | hle
      · exact mul_nonneg_of_nonpos_of_nonpos (by omega) (by omega)
      · exact mul_nonneg (by omega) (by omega)
    push_cast
    linarith [hprod]

/-- The product of the halves is about a quarter of the square. -/
theorem halves_ge {n : ℕ} (hn : 2 ≤ n) :
    n ≤ 2 * ((n / 2) * ((n + 1) / 2)) ∧ n * n ≤ 4 * ((n / 2) * ((n + 1) / 2)) + 1 := by
  obtain ⟨h, rfl | rfl⟩ := n.even_or_odd'
  · have hhalf : 2 * h / 2 = h ∧ (2 * h + 1) / 2 = h := by omega
    rw [hhalf.1, hhalf.2]
    constructor <;> nlinarith
  · have hhalf : (2 * h + 1) / 2 = h ∧ (2 * h + 1 + 1) / 2 = h + 1 := by omega
    rw [hhalf.1, hhalf.2]
    constructor <;> nlinarith

/-- **The largest sum of squared distances**, up to the error of `a` as the mean. -/
theorem length_mul_sumSq_le (hne : l ≠ []) (hl : ∀ x ∈ l, 0 ≤ x ∧ x ≤ m) (a : ℤ) :
    l.length * sumSq a l ≤
      (l.length / 2 : ℕ) * ((l.length + 1) / 2 : ℕ) * m ^ 2 + (l.sum - l.length * a) ^ 2 := by
  have hlen : (1 : ℤ) ≤ l.length := by exact_mod_cast List.length_pos_iff.2 hne
  obtain ⟨k, -, hle⟩ := exists_vertex hlen hl 0
  have hhalves : (l.length * k - k ^ 2 : ℤ) * m ^ 2 ≤ (l.length / 2 : ℕ) * ((l.length + 1) / 2 : ℕ) * m ^ 2 :=
    mul_le_mul_of_nonneg_right (mul_sub_le_halves k l.length) (sq_nonneg m)
  rw [length_mul_sumSq]
  linarith [hle, hhalves]

/-- Some elements at 0 and some at `m` reach their product. -/
theorem le_sumSq_halves (a m : ℤ) (p q : ℕ) :
    p * q * m ^ 2 ≤ (p + q) * sumSq a (List.replicate p 0 ++ List.replicate q m) := by
  rw [sumSq_append, sumSq_replicate, sumSq_replicate]
  have hsq : 0 ≤ ((p + q) * a - q * m) ^ 2 := sq_nonneg _
  linarith [hsq]

end SquaredDistances
