import Mathlib.Algebra.Order.Monoid.Canonical.Defs
import Mathlib.Algebra.BigOperators.Group.List.Basic

/-!
# Greedy assignment

Items with weights are given to bins, one after the other, each to a bin that has least load at that time. Then no
bin ends with more than another one and the weight of the last item that it was given (`Run.bound`), and bins that
start with the same load end within the greatest weight of each other (`Run.even`).
-/

namespace Greedy

/-! ### What a bin was given -/

section Given

variable {β ι κ : Type*} [DecidableEq β] {hist : List (β × ι)} {b c : β} {i : ι}

/-- The items that the bin was given, in order. -/
def given (hist : List (β × ι)) (b : β) : List ι := (hist.filter fun e => e.1 = b).map Prod.snd

theorem given_snoc_self (hist : List (β × ι)) (b : β) (i : ι) :
    given (hist ++ [(b, i)]) b = given hist b ++ [i] := by
  simp [given]

theorem given_snoc_of_ne (h : c ≠ b) (hist : List (β × ι)) (i : ι) :
    given (hist ++ [(b, i)]) c = given hist c := by
  simp [given, Ne.symm h]

theorem given_map (hist : List (β × ι)) (weight : ι → κ) (b : β) :
    given (hist.map fun e => (e.1, weight e.2)) b = (given hist b).map weight := by
  unfold given
  rw [List.filter_map, List.map_map, List.map_map]
  rfl

theorem mem_of_mem_given (h : i ∈ given hist b) : (b, i) ∈ hist := by
  obtain ⟨⟨c, j⟩, he, rfl⟩ := List.mem_map.1 h
  obtain ⟨hmem, hc⟩ := List.mem_filter.1 he
  obtain rfl : c = b := by simpa using hc
  exact hmem

end Given

/-! ### Runs -/

variable {β κ : Type*}

/-- An item of weight `w` is given to the bin `b`, which has least load. -/
structure Assign [Add κ] [LE κ] (bins : Set β) (b : β) (w : κ) (load load' : β → κ) : Prop where
  mem : b ∈ bins
  least : ∀ c ∈ bins, load b ≤ load c
  self : load' b = load b + w
  other : ∀ c ∈ bins, c ≠ b → load' c = load c

/-- Items are given to bins one after the other. -/
inductive Run [Add κ] [LE κ] (bins : Set β) (load : β → κ) : List (β × κ) → (β → κ) → Prop
  | nil : Run bins load [] load
  | snoc {hist : List (β × κ)} {load₁ load₂ : β → κ} {b : β} {w : κ} : Run bins load hist load₁ →
      Assign bins b w load₁ load₂ → Run bins load (hist ++ [(b, w)]) load₂

variable {bins : Set β} {load load' : β → κ} {hist : List (β × κ)} {a b : β} {w m : κ}

/-- A bin that is given nothing keeps its load. -/
theorem Run.of_given_nil [DecidableEq β] [Add κ] [LE κ] (h : Run bins load hist load') (hb : b ∈ bins)
    (hnil : given hist b = []) : load' b = load b := by
  induction h with
  | nil => rfl
  | @snoc hist _ _ c w _ hassign ih =>
    by_cases hbc : b = c
    · subst hbc
      rw [given_snoc_self] at hnil
      simp at hnil
    · rw [given_snoc_of_ne hbc] at hnil
      exact (hassign.other b hb hbc).trans (ih hnil)

variable [AddCommMonoid κ] [PartialOrder κ] [CanonicallyOrderedAdd κ]

/-- The loads do not decrease. -/
theorem Assign.le (h : Assign bins b w load load') (ha : a ∈ bins) : load a ≤ load' a := by
  by_cases hab : a = b
  · subst hab
    rw [h.self]
    exact le_self_add
  · exact (h.other a ha hab).ge

theorem Run.le (h : Run bins load hist load') (ha : a ∈ bins) : load a ≤ load' a := by
  induction h with
  | nil => exact le_rfl
  | snoc _ hassign ih => exact ih.trans (hassign.le ha)

variable [DecidableEq β] [IsOrderedAddMonoid κ]

/-- **The greedy bound.** -/
theorem Run.bound (h : Run bins load hist load') (ha : a ∈ bins) (hb : b ∈ bins)
    (hw : (given hist b).getLast? = some w) : load' b ≤ load' a + w := by
  induction h generalizing w with
  | nil => cases hw
  | @snoc hist load₁ load₂ c v _ hassign ih =>
    by_cases hbc : b = c
    · -- the item goes to `b`, which had at most the load of `a`
      subst hbc
      rw [given_snoc_self, List.getLast?_concat, Option.some.injEq] at hw
      subst hw
      rw [hassign.self]
      gcongr
      exact (hassign.least a ha).trans (hassign.le ha)
    · rw [given_snoc_of_ne hbc] at hw
      rw [hassign.other b hb hbc]
      refine (ih hw).trans ?_
      gcongr
      exact hassign.le ha

/-- **From equal loads no two bins get further apart than the greatest weight.** -/
theorem Run.even (h : Run bins load hist load') (hstart : ∀ a ∈ bins, ∀ b ∈ bins, load a = load b)
    (hm : ∀ e ∈ hist, e.2 ≤ m) (ha : a ∈ bins) (hb : b ∈ bins) : load' b ≤ load' a + m := by
  cases hlast : (given hist b).getLast? with
  | none =>
    rw [List.getLast?_eq_none_iff] at hlast
    rw [h.of_given_nil hb hlast, hstart b hb a ha]
    exact (h.le ha).trans le_self_add
  | some w =>
    refine (h.bound ha hb hlast).trans ?_
    gcongr
    exact hm (b, w) (mem_of_mem_given (List.mem_of_getLast? hlast))

end Greedy
