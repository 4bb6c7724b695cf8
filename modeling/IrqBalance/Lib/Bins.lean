import Mathlib.Data.Set.Insert
import Mathlib.Data.List.Nodup
import Mathlib.Data.List.Perm.Basic
import Mathlib.Logic.Function.Basic

/-!
# Items filed in bins

A family of lists (`bin`), one for each index in `B`, together with a map `home` from items to
indices. `IsBins` says that the family is the family of fibres of `home` over the live items, each
list without repetition. Then every live item stands in exactly one bin, exactly once
(`IsBins.count_eq_one`), and its home tells which.

Filing a new item (`IsBins.insert`), moving an item to another bin (`IsBins.move`) and reordering
the bins (`IsBins.perm`) keep the property.
-/

namespace Bins

variable {β ι : Type*}

/-- The lists `bin b`, for `b` in `B`, are the fibres of `home` over the live items. -/
structure IsBins (B : Set β) (live : Set ι) (bin : β → List ι) (home : ι → β) : Prop where
  nodup : ∀ b ∈ B, (bin b).Nodup
  mem_iff : ∀ b ∈ B, ∀ i, i ∈ bin b ↔ i ∈ live ∧ home i = b
  home_mem : ∀ i ∈ live, home i ∈ B

variable {B : Set β} {live : Set ι} {bin : β → List ι} {home : ι → β}

theorem IsBins.mem_home (h : IsBins B live bin home) {i : ι} (hi : i ∈ live) :
    i ∈ bin (home i) :=
  (h.mem_iff _ (h.home_mem i hi) i).2 ⟨hi, rfl⟩

/-- Only the bins of `B` and the homes of live items matter. -/
theorem IsBins.congr (h : IsBins B live bin home) {bin' : β → List ι} {home' : ι → β}
    (hbin : ∀ b ∈ B, bin' b = bin b) (hhome : ∀ i ∈ live, home' i = home i) :
    IsBins B live bin' home' where
  nodup := fun b hb => by rw [hbin b hb]; exact h.nodup b hb
  mem_iff := fun b hb i => by
    rw [hbin b hb, h.mem_iff b hb]
    exact and_congr_right fun hi => by rw [hhome i hi]
  home_mem := fun i hi => by rw [hhome i hi]; exact h.home_mem i hi

/-- Reordering the bins. -/
theorem IsBins.perm (h : IsBins B live bin home) {bin' : β → List ι}
    (hbin : ∀ b ∈ B, (bin' b).Perm (bin b)) : IsBins B live bin' home where
  nodup := fun b hb => (hbin b hb).nodup_iff.2 (h.nodup b hb)
  mem_iff := fun b hb i => by rw [(hbin b hb).mem_iff]; exact h.mem_iff b hb i
  home_mem := h.home_mem

/-- An item is in no bin but its home. -/
theorem IsBins.not_mem (h : IsBins B live bin home) {b : β} (hb : b ∈ B) {i : ι}
    (hi : home i ≠ b) : i ∉ bin b :=
  fun hm => hi ((h.mem_iff b hb i).1 hm).2

section Update

variable [DecidableEq β] [DecidableEq ι]

/-- Append `i` to bin `b`. -/
def push (bin : β → List ι) (b : β) (i : ι) : β → List ι :=
  Function.update bin b (bin b ++ [i])

/-- Take `i` out of bin `a` and append it to bin `b`. -/
def move (bin : β → List ι) (a b : β) (i : ι) : β → List ι :=
  push (Function.update bin a ((bin a).erase i)) b i

omit [DecidableEq ι] in
theorem push_self (bin : β → List ι) (b : β) (i : ι) : push bin b i b = bin b ++ [i] := by
  simp [push]

omit [DecidableEq ι] in
theorem push_of_ne {b c : β} (h : c ≠ b) (bin : β → List ι) (i : ι) : push bin b i c = bin c := by
  simp [push, h]

theorem move_to {a b : β} (h : b ≠ a) (bin : β → List ι) (i : ι) :
    move bin a b i b = bin b ++ [i] := by
  simp [move, push, h]

theorem move_from {a b : β} (h : b ≠ a) (bin : β → List ι) (i : ι) :
    move bin a b i a = (bin a).erase i := by
  simp [move, push, Ne.symm h]

theorem move_of_ne {a b c : β} (ha : c ≠ a) (hb : c ≠ b) (bin : β → List ι) (i : ι) :
    move bin a b i c = bin c := by
  simp [move, push, ha, hb]

/-- File a new item. -/
theorem IsBins.insert (h : IsBins B live bin home) {b : β} (hb : b ∈ B) {i : ι} (hi : i ∉ live) :
    IsBins B (insert i live) (push bin b i) (Function.update home i b) := by
  have hfresh : ∀ c ∈ B, i ∉ bin c := fun c hc hm => hi ((h.mem_iff c hc i).1 hm).1
  refine ⟨fun c hc => ?_, fun c hc j => ?_, fun j hj => ?_⟩
  · by_cases hcb : c = b
    · subst hcb
      rw [push_self]
      exact (h.nodup c hc).append (List.nodup_singleton i)
        (List.disjoint_singleton.2 (hfresh c hc))
    · rw [push_of_ne hcb]; exact h.nodup c hc
  · by_cases hj : j = i
    · subst hj
      by_cases hcb : c = b
      · subst hcb; simp [push_self]
      · rw [push_of_ne hcb]
        simp [hfresh c hc, Ne.symm hcb]
    · by_cases hcb : c = b
      · subst hcb; simp [push_self, hj, h.mem_iff c hc]
      · simp [push_of_ne hcb, hj, h.mem_iff c hc]
  · rcases Set.mem_insert_iff.1 hj with rfl | hj
    · simpa using hb
    · by_cases hji : j = i
      · subst hji; simpa using hb
      · simpa [hji] using h.home_mem j hj

/-- Move a live item to another bin. -/
theorem IsBins.move (h : IsBins B live bin home) {i : ι} (hi : i ∈ live) {b : β} (hb : b ∈ B)
    (hne : b ≠ home i) :
    IsBins B live (Bins.move bin (home i) b i) (Function.update home i b) := by
  have ha := h.home_mem i hi
  refine ⟨fun c hc => ?_, fun c hc j => ?_, fun j hj => ?_⟩
  · by_cases hcb : c = b
    · subst hcb
      rw [move_to hne]
      exact (h.nodup c hc).append (List.nodup_singleton i)
        (List.disjoint_singleton.2 (h.not_mem hc (Ne.symm hne)))
    · by_cases hca : c = home i
      · subst hca; rw [move_from hne]; exact (h.nodup _ hc).erase i
      · rw [move_of_ne hca hcb]; exact h.nodup c hc
  · by_cases hcb : c = b
    · subst hcb
      rw [move_to hne]
      by_cases hj : j = i
      · subst hj; simp [hi]
      · simp [hj, h.mem_iff c hc]
    · by_cases hca : c = home i
      · subst hca
        rw [move_from hne, (h.nodup _ hc).mem_erase_iff]
        by_cases hj : j = i
        · subst hj; simp [hne]
        · simp [hj, h.mem_iff _ hc]
      · rw [move_of_ne hca hcb]
        by_cases hj : j = i
        · subst hj; simp [h.mem_iff c hc, Ne.symm hca, Ne.symm hcb]
        · simp [hj, h.mem_iff c hc]
  · by_cases hj' : j = i
    · subst hj'; simpa using hb
    · simpa [hj'] using h.home_mem j hj

end Update

/-- A live item occurs exactly once in the concatenation of the bins. -/
theorem IsBins.count_eq_one [DecidableEq ι] (h : IsBins B live bin home) {bs : List β}
    (hnd : bs.Nodup) (hbs : ∀ b, b ∈ bs ↔ b ∈ B) {i : ι} (hi : i ∈ live) :
    (bs.flatMap bin).count i = 1 := by
  have hB := h.home_mem i hi
  obtain ⟨l, r, rfl⟩ := List.append_of_mem ((hbs _).2 hB)
  have hother : ∀ c ∈ l ++ r, i ∉ bin c := by
    intro c hc
    have hne : home i ≠ c := by
      rintro rfl
      exact (List.nodup_cons.1 (List.nodup_middle.1 hnd)).1 hc
    refine h.not_mem ((hbs c).1 ?_) hne
    rcases List.mem_append.1 hc with hc | hc <;> simp [hc]
  have hzero : ∀ t : List β, (∀ c ∈ t, c ∈ l ++ r) → (t.flatMap bin).count i = 0 := by
    intro t ht
    rw [List.count_eq_zero, List.mem_flatMap]
    rintro ⟨c, hc, hm⟩
    exact hother c (ht c hc) hm
  rw [List.flatMap_append, List.flatMap_cons, List.count_append, List.count_append,
    hzero l fun c hc => List.mem_append_left r hc, hzero r fun c hc => List.mem_append_right l hc,
    List.count_eq_one_of_mem (h.nodup _ hB) (h.mem_home hi)]

/-- An item that is not live occurs in no bin. -/
theorem IsBins.not_mem_flatMap (h : IsBins B live bin home) {bs : List β} (hbs : ∀ b ∈ bs, b ∈ B)
    {i : ι} (hi : i ∉ live) : i ∉ bs.flatMap bin := by
  rw [List.mem_flatMap]
  rintro ⟨b, hb, hm⟩
  exact hi ((h.mem_iff b (hbs b hb) i).1 hm).1

end Bins
