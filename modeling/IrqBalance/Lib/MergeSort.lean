import Mathlib.Data.List.Basic
import Mathlib.Data.List.Perm.Basic

/-!
# Merge sort on lists, by structural recursion

The merge sort of C list libraries: split after half the nodes, sort both parts, merge, the left
element first when the comparison allows it. Core's `List.mergeSort` is defined by well-founded
recursion and does not evaluate in the kernel; this one recurses on the first list (`merge`) and on
a bound for the length (`sortFrom`).
-/

namespace MergeSort

variable {α : Type*}

/-- Merge `x :: xs` into a list, given the merge of `xs`. -/
def mergeCons (le : α → α → Bool) (x : α) (xs : List α) (k : List α → List α) : List α → List α
  | [] => x :: xs
  | y :: ys => if le x y then x :: k (y :: ys) else y :: mergeCons le x xs k ys

/-- Merge two lists; `le x y` lets `x` go first. -/
def merge (le : α → α → Bool) : List α → List α → List α
  | [], ys => ys
  | x :: xs, ys => mergeCons le x xs (merge le xs) ys

/-- Sort a list of length at most `n`. -/
def sortFrom (le : α → α → Bool) : ℕ → List α → List α
  | 0, l => l
  | n + 1, l =>
    if l.length < 2 then l
    else merge le (sortFrom le n (l.take (l.length / 2))) (sortFrom le n (l.drop (l.length / 2)))

/-- Merge sort. -/
def sort (le : α → α → Bool) (l : List α) : List α := sortFrom le l.length l

@[simp] theorem merge_nil_left (le : α → α → Bool) (ys : List α) : merge le [] ys = ys := rfl

@[simp] theorem merge_nil_right (le : α → α → Bool) (xs : List α) : merge le xs [] = xs := by
  cases xs <;> rfl

theorem merge_cons_cons (le : α → α → Bool) (x y : α) (xs ys : List α) : merge le (x :: xs) (y :: ys) =
    if le x y then x :: merge le xs (y :: ys) else y :: merge le (x :: xs) ys := rfl

theorem mergeCons_perm (le : α → α → Bool) (x : α) (xs : List α) {k : List α → List α}
    (hk : ∀ ys, (k ys).Perm (xs ++ ys)) (ys : List α) :
    (mergeCons le x xs k ys).Perm (x :: xs ++ ys) := by
  induction ys with
  | nil => simp [mergeCons]
  | cons y ys ih =>
    rw [mergeCons]
    split_ifs
    · exact (hk (y :: ys)).cons x
    · exact (ih.cons y).trans List.perm_middle.symm

theorem merge_perm (le : α → α → Bool) (xs ys : List α) : (merge le xs ys).Perm (xs ++ ys) := by
  induction xs generalizing ys with
  | nil => exact List.Perm.refl _
  | cons x xs ih => exact mergeCons_perm le x xs ih ys

theorem sortFrom_perm (le : α → α → Bool) (n : ℕ) (l : List α) : (sortFrom le n l).Perm l := by
  induction n generalizing l with
  | zero => exact List.Perm.refl _
  | succ n ih =>
    rw [sortFrom]
    split_ifs
    · exact List.Perm.refl _
    · refine (merge_perm le _ _).trans (((ih _).append (ih _)).trans ?_)
      rw [List.take_append_drop]

/-- Sorting reorders the list. -/
theorem sort_perm (le : α → α → Bool) (l : List α) : (sort le l).Perm l :=
  sortFrom_perm le l.length l

/-- A larger bound makes no difference. -/
theorem sortFrom_eq (le : α → α → Bool) {m n : ℕ} {l : List α} (hm : l.length ≤ m) (hn : l.length ≤ n) :
    sortFrom le m l = sortFrom le n l := by
  induction m generalizing n l with
  | zero =>
    have hshort : l.length < 2 := by omega
    cases n with
    | zero => rfl
    | succ n => rw [sortFrom, sortFrom, if_pos hshort]
  | succ m ih =>
    cases n with
    | zero =>
      have hshort : l.length < 2 := by omega
      rw [sortFrom, sortFrom, if_pos hshort]
    | succ n =>
      rw [sortFrom, sortFrom]
      split_ifs with hshort
      · rfl
      · have htake : (l.take (l.length / 2)).length ≤ l.length / 2 := List.length_take_le _ _
        have hdrop : (l.drop (l.length / 2)).length = l.length - l.length / 2 := List.length_drop
        rw [ih (n := n) (by omega) (by omega), ih (n := n) (by omega) (by omega)]

theorem sortFrom_eq_sort (le : α → α → Bool) {n : ℕ} {l : List α} (hn : l.length ≤ n) : sortFrom le n l = sort le l :=
  sortFrom_eq le hn (Nat.le_refl _)

/-! ### Order -/

section Map

variable {β : Type*} (f : β → α) (le : α → α → Bool)

theorem merge_map (xs ys : List β) :
    (merge (fun x y => le (f x) (f y)) xs ys).map f = merge le (xs.map f) (ys.map f) := by
  induction xs generalizing ys with
  | nil => rfl
  | cons x xs ih =>
    induction ys with
    | nil => simp
    | cons y ys ihy =>
      rw [merge_cons_cons, List.map_cons, List.map_cons, merge_cons_cons]
      split_ifs
      · rw [List.map_cons, ih]
        rfl
      · rw [List.map_cons, ihy]
        rfl

theorem sortFrom_map (n : ℕ) (l : List β) :
    (sortFrom (fun x y => le (f x) (f y)) n l).map f = sortFrom le n (l.map f) := by
  induction n generalizing l with
  | zero => rfl
  | succ n ih =>
    rw [sortFrom, sortFrom, List.length_map, ← List.map_take, ← List.map_drop, ← ih, ← ih, ← merge_map]
    split_ifs <;> rfl

/-- Sorting records by what is found in them. -/
theorem sort_map (l : List β) : (sort (fun x y => le (f x) (f y)) l).map f = sort le (l.map f) := by
  rw [sort, sort, sortFrom_map, List.length_map]

end Map

section Pairwise

variable {le : α → α → Bool} (htotal : ∀ x y, le x y = true ∨ le y x = true)
variable (htrans : ∀ x y z, le x y = true → le y z = true → le x z = true)

include htotal htrans

theorem merge_pairwise {xs ys : List α} (hxs : xs.Pairwise fun x y => le x y) (hys : ys.Pairwise fun x y => le x y) :
    (merge le xs ys).Pairwise fun x y => le x y := by
  induction xs generalizing ys with
  | nil => exact hys
  | cons x xs ih =>
    induction ys with
    | nil => simpa using hxs
    | cons y ys ihy =>
      obtain ⟨hx, hxs'⟩ := List.pairwise_cons.1 hxs
      obtain ⟨hy, hys'⟩ := List.pairwise_cons.1 hys
      rw [merge_cons_cons]
      split_ifs with hle
      · refine List.pairwise_cons.2 ⟨fun z hz => ?_, ih hxs' hys⟩
        rcases List.mem_append.1 ((merge_perm le xs (y :: ys)).mem_iff.1 hz) with hz | hz
        · exact hx z hz
        · rcases List.mem_cons.1 hz with rfl | hz
          · exact hle
          · exact htrans x y z hle (hy z hz)
      · have hyx : le y x = true := (htotal x y).resolve_left hle
        refine List.pairwise_cons.2 ⟨fun z hz => ?_, ihy hys'⟩
        rcases List.mem_append.1 ((merge_perm le (x :: xs) ys).mem_iff.1 hz) with hz | hz
        · rcases List.mem_cons.1 hz with rfl | hz
          · exact hyx
          · exact htrans y x z hyx (hx z hz)
        · exact hy z hz

/-- **The sorted list is in order**, for a total preorder. -/
theorem sort_pairwise (l : List α) : (sort le l).Pairwise fun x y => le x y := by
  have hsort : ∀ n (l : List α), l.length ≤ n → (sortFrom le n l).Pairwise fun x y => le x y := by
    intro n
    induction n with
    | zero =>
      intro l hl
      rw [List.eq_nil_of_length_eq_zero (Nat.le_zero.1 hl)]
      exact List.Pairwise.nil
    | succ n ih =>
      intro l hl
      rw [sortFrom]
      split_ifs with hshort
      · match l, hshort with
        | [], _ => exact List.Pairwise.nil
        | [x], _ => exact List.pairwise_singleton _ x
      · have htake : (l.take (l.length / 2)).length ≤ l.length / 2 := List.length_take_le _ _
        have hdrop : (l.drop (l.length / 2)).length = l.length - l.length / 2 := List.length_drop
        exact merge_pairwise htotal htrans (ih _ (by omega)) (ih _ (by omega))
  exact hsort l.length l (Nat.le_refl _)

end Pairwise

end MergeSort
