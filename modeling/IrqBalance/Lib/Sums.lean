import Mathlib.Algebra.BigOperators.Ring.List
import Mathlib.Algebra.Order.BigOperators.Group.List
import Mathlib.Algebra.Order.Group.Nat
import Mathlib.Algebra.Ring.Nat
import Mathlib.Data.List.Nodup
import Mathlib.Data.List.Perm.Subperm

/-!
# Sums in 64 bits and fair shares

When the exact sum fits into 64 bits, so does every sum on the way to it, and the sum modulo `2 ^ 64` is
exact. An amount that is split by counts, with a quotient rounded down, is never exceeded
(`sum_share_le`).
-/

namespace Sums

variable {α β : Type*} {f g : α → ℕ} {l l' : List α}

theorem sum_map_le_of_subset (hl : l.Nodup) (hsub : ∀ a ∈ l, a ∈ l') (f : α → ℕ) :
    (l.map f).sum ≤ (l'.map f).sum := by
  obtain ⟨t, ht, hs⟩ := hl.subperm hsub
  rw [← (ht.map f).sum_eq]
  exact (hs.map f).sum_le_sum fun _ _ => Nat.zero_le _

theorem sum_map_flatMap (l : List β) (h : β → List α) (f : α → ℕ) :
    ((l.flatMap h).map f).sum = (l.map fun b => ((h b).map f).sum).sum := by
  induction l with
  | nil => rfl
  | cons b l ih => rw [List.flatMap_cons, List.map_append, List.sum_append, ih, List.map_cons, List.sum_cons]

theorem le_sum_map {a : α} (ha : a ∈ l) (f : α → ℕ) : f a ≤ (l.map f).sum :=
  List.single_le_sum (fun _ _ => Nat.zero_le _) _ (List.mem_map_of_mem ha)

/-- Splitting a sum along a part of the list. -/
theorem sum_map_filter_notMem [DecidableEq α] (hl : l.Nodup) (hl' : l'.Nodup) (hsub : ∀ a ∈ l', a ∈ l)
    (f : α → ℕ) : ((l.filter fun a => a ∉ l').map f).sum + (l'.map f).sum = (l.map f).sum := by
  have hperm : (l.filter (fun a => a ∉ l') ++ l').Perm l := by
    refine (List.perm_ext_iff_of_nodup ?_ hl).2 fun a => ?_
    · refine (hl.filter _).append hl' fun a ha ha' => ?_
      simp only [List.mem_filter, decide_not, Bool.not_eq_true', decide_eq_false_iff_not] at ha
      exact ha.2 ha'
    · simp only [List.mem_append, List.mem_filter, decide_not, Bool.not_eq_true', decide_eq_false_iff_not]
      constructor
      · rintro (ha | ha)
        · exact ha.1
        · exact hsub a ha
      · intro ha
        by_cases ha' : a ∈ l'
        · exact Or.inr ha'
        · exact Or.inl ⟨ha, ha'⟩
  rw [← (hperm.map f).sum_eq, List.map_append, List.sum_append]

/-! ### 64 bits -/

theorem toNat_add {a b : UInt64} (h : a.toNat + b.toNat < 2 ^ 64) : (a + b).toNat = a.toNat + b.toNat := by
  rw [UInt64.toNat_add, Nat.mod_eq_of_lt h]

theorem toNat_sub {a b : UInt64} (h : b ≤ a) : (a - b).toNat = a.toNat - b.toNat :=
  UInt64.toNat_sub_of_le a b h

theorem toNat_mul {a b : UInt64} (h : a.toNat * b.toNat < 2 ^ 64) : (a * b).toNat = a.toNat * b.toNat := by
  rw [UInt64.toNat_mul, Nat.mod_eq_of_lt h]

/-- A running sum is exact modulo `2 ^ 64`, and its terms need only be. -/
theorem toNat_runningSum_mod {f : α → UInt64} {g : α → ℕ} (hfg : ∀ a ∈ l, (f a).toNat = g a % 2 ^ 64)
    (acc : UInt64) : (l.foldl (fun acc a => acc + f a) acc).toNat = (acc.toNat + (l.map g).sum) % 2 ^ 64 := by
  induction l generalizing acc with
  | nil => exact (Nat.mod_eq_of_lt acc.toNat_lt).symm
  | cons a l ih =>
    obtain ⟨ha, hl⟩ := List.forall_mem_cons.1 hfg
    rw [List.foldl_cons, ih hl, UInt64.toNat_add, ha, List.map_cons, List.sum_cons, Nat.mod_add_mod,
      Nat.add_right_comm, Nat.add_mod_mod, Nat.add_right_comm, Nat.add_assoc]

theorem toNat_runningSum_eq_mod (f : α → UInt64) (acc : UInt64) :
    (l.foldl (fun acc a => acc + f a) acc).toNat = (acc.toNat + (l.map fun a => (f a).toNat).sum) % 2 ^ 64 :=
  toNat_runningSum_mod (fun a _ => (Nat.mod_eq_of_lt (f a).toNat_lt).symm) acc

/-- A running sum that stays in range. -/
theorem toNat_runningSum (f : α → UInt64) {acc : UInt64}
    (h : acc.toNat + (l.map fun a => (f a).toNat).sum < 2 ^ 64) :
    (l.foldl (fun acc a => acc + f a) acc).toNat = acc.toNat + (l.map fun a => (f a).toNat).sum := by
  rw [toNat_runningSum_eq_mod, Nat.mod_eq_of_lt h]

/-- A running sum that may wrap. -/
theorem toNat_runningSum_le (f : α → UInt64) (acc : UInt64) :
    (l.foldl (fun acc a => acc + f a) acc).toNat ≤ acc.toNat + (l.map fun a => (f a).toNat).sum := by
  rw [toNat_runningSum_eq_mod]
  exact Nat.mod_le _ _

/-! ### Shares -/

/-- The amount for a count of one, when `amount` is split by counts whose sum is `total` or less. -/
def share (amount total : ℕ) : ℕ := if total = 0 then 1 else amount / total

/-- **The shares do not exceed the amount.** -/
theorem sum_share_le {amount total : ℕ} (h : (l.map f).sum ≤ total) :
    (l.map fun a => f a * share amount total).sum ≤ amount := by
  rw [List.sum_map_mul_right]
  unfold share
  split_ifs with hzero
  · omega
  · exact (Nat.mul_le_mul_right _ h).trans (Nat.mul_div_le amount total)

theorem share_le {amount total : ℕ} (h : (l.map f).sum ≤ total) {a : α} (ha : a ∈ l) :
    f a * share amount total ≤ amount :=
  (le_sum_map ha fun a => f a * share amount total).trans (sum_share_le h)

end Sums
