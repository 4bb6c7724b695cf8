import Mathlib.Data.Prod.Lex
import Mathlib.Data.Set.Function
import Mathlib.Order.RelClasses
import IrqBalance.GList
import IrqBalance.IrqLists

/-!
# Sorting irqs

`sort_irqs` compares the classes, then the loads, then the addresses of two irqs, the larger first. No two irqs
are equal for it. `sort_irq_list` puts the nodes of a list into that order in memory, and the order they stood in
before makes no difference (`sortIrqList_links`).
-/

namespace IrqBalance

open LinkedList (Links IsList)

variable {s : State} {i j : IrqId} {irqs : List IrqId}

/-- What `sort_irqs` compares, the most important first. -/
def sortKey (s : State) (i : IrqId) : ℕ ×ₗ ℕ ×ₗ ℕ :=
  toLex ((s.irqs i).irqClass.toNat, toLex ((s.irqs i).load.toNat, s.opts.irqAddr i))

/-- The irq with the larger key comes first. -/
def SortsBefore (s : State) (i j : IrqId) : Prop := sortKey s j < sortKey s i

/-- Class descending, then load descending, then address descending. -/
theorem sortsBefore_iff : SortsBefore s i j ↔ (s.irqs j).irqClass.toNat < (s.irqs i).irqClass.toNat ∨
    (s.irqs j).irqClass.toNat = (s.irqs i).irqClass.toNat ∧ ((s.irqs j).load < (s.irqs i).load ∨
      (s.irqs j).load = (s.irqs i).load ∧ s.opts.irqAddr j < s.opts.irqAddr i) := by
  unfold SortsBefore sortKey
  rw [Prod.Lex.toLex_lt_toLex, Prod.Lex.toLex_lt_toLex, UInt64.lt_iff_toNat_lt, ← UInt64.toNat_inj]

/-- `sort_irqs` never returns 0. -/
theorem sortIrqs_cases (s : State) (i j : IrqId) :
    sortIrqs s i j = 1 ∧ SortsBefore s j i ∨ sortIrqs s i j = -1 ∧ ¬SortsBefore s j i := by
  rw [sortsBefore_iff]
  unfold sortIrqs
  split_ifs with h₁ h₂ h₃ h₄ h₅ <;> grind

theorem sortIrqs_pos_iff : 0 < sortIrqs s i j ↔ SortsBefore s j i := by
  rcases sortIrqs_cases s i j with ⟨e, h⟩ | ⟨e, h⟩ <;> simp [e, h]

theorem sortIrqs_nonpos_iff : sortIrqs s i j ≤ 0 ↔ ¬SortsBefore s j i := by
  rw [← sortIrqs_pos_iff, not_lt]

/-- Different irqs have different addresses, and one of them comes first. -/
theorem sortsBefore_or (haddr : Set.InjOn s.opts.irqAddr {i | i ∈ irqs}) (hi : i ∈ irqs) (hj : j ∈ irqs)
    (hne : i ≠ j) : SortsBefore s i j ∨ SortsBefore s j i := by
  rcases lt_trichotomy (sortKey s i) (sortKey s j) with h | h | h
  · exact Or.inr h
  · have hkey := congrArg (fun k : ℕ ×ₗ ℕ ×ₗ ℕ => (ofLex (ofLex k).2).2) h
    exact absurd (haddr hi hj hkey) hne
  · exact Or.inl h

/-- **`sort_irqs` is a strict total order on different irqs.** -/
theorem sortsBefore_strictTotal (haddr : Set.InjOn s.opts.irqAddr {i | i ∈ irqs}) :
    IsStrictTotalOrder {i // i ∈ irqs} fun i j => SortsBefore s i j where
  irrefl i := lt_irrefl (sortKey s i)
  trans i j k hij hjk := lt_trans hjk hij
  trichotomous i j hij hji := by
    by_contra hne
    exact (sortsBefore_or haddr i.2 j.2 fun e => hne (Subtype.ext e)).elim hij hji

/-- There is only one list with some irqs that is in order. -/
theorem eq_of_sortsBefore {l l' : List IrqId} (hperm : l.Perm l') (hl : l.Pairwise (SortsBefore s))
    (hl' : l'.Pairwise (SortsBefore s)) : l = l' :=
  hperm.eq_of_pairwise (fun _ _ _ _ hij hji => absurd hij (lt_asymm hji)) hl hl'

/-- The model of `sort_irq_list` sorts. -/
theorem sort_sortsBefore (hnodup : irqs.Nodup) (haddr : Set.InjOn s.opts.irqAddr {i | i ∈ irqs}) :
    (MergeSort.sort (fun i j => sortIrqs s i j ≤ 0) irqs).Pairwise (SortsBefore s) := by
  have hperm := MergeSort.sort_perm (fun i j => sortIrqs s i j ≤ 0) irqs
  have htotal : ∀ i j, decide (sortIrqs s i j ≤ 0) = true ∨ decide (sortIrqs s j i ≤ 0) = true := fun i j => by
    simp only [decide_eq_true_eq, sortIrqs_nonpos_iff, SortsBefore, not_lt]
    exact le_total _ _
  have htrans : ∀ i j k, decide (sortIrqs s i j ≤ 0) = true → decide (sortIrqs s j k ≤ 0) = true →
      decide (sortIrqs s i k ≤ 0) = true := fun i j k hij hjk => by
    simp only [decide_eq_true_eq, sortIrqs_nonpos_iff, SortsBefore, not_lt] at *
    exact hjk.trans hij
  have hsorted := MergeSort.sort_pairwise htotal htrans irqs
  have hdistinct := (hperm.nodup_iff.2 hnodup).and hsorted
  refine hdistinct.imp_of_mem fun {i j} hi hj ⟨hne, hle⟩ => ?_
  rw [decide_eq_true_eq, sortIrqs_nonpos_iff] at hle
  exact (sortsBefore_or haddr (hperm.mem_iff.1 hi) (hperm.mem_iff.1 hj) hne).resolve_right hle

/-- **`sort_irq_list` loses no irq.** On different irqs `sort_irqs` is a strict total order; the nodes of the list
are linked in that order, forwards and backwards, and no other node is written to. Every list of the same irqs is
sorted into that order. -/
theorem sortIrqList_links {ν : Type} [DecidableEq ν] (s : State) {data : ν → IrqId} {h : Links ν} {list : Option ν}
    {l : List ν} {n : ℕ} (hl : IsList h list l) (hdata : (l.map data).Nodup)
    (haddr : Set.InjOn s.opts.irqAddr {i | i ∈ l.map data}) (hn : l.length < n) :
    IsStrictTotalOrder {i // i ∈ l.map data} (fun i j => SortsBefore s i j) ∧
    (∀ i ∈ l.map data, ∀ j ∈ l.map data, i ≠ j →
      (sortIrqs s i j < 0 ↔ SortsBefore s i j) ∧ (0 < sortIrqs s i j ↔ SortsBefore s j i)) ∧
    ∃ h' list' l', gListSort (fun x y => sortIrqs s (data x) (data y)) n h list = some (h', list') ∧
      IsList h' list' l' ∧ l'.Perm l ∧ Frame h h' l ∧ (l'.map data).Pairwise (SortsBefore s) ∧
      ∀ irqs, irqs.Perm (l.map data) → MergeSort.sort (fun i j => sortIrqs s i j ≤ 0) irqs = l'.map data := by
  refine ⟨sortsBefore_strictTotal haddr, fun i hi j hj hne => ⟨?_, sortIrqs_pos_iff⟩, ?_⟩
  · rcases sortIrqs_cases s i j with ⟨e, h⟩ | ⟨e, h⟩
    · have hasymm : ¬SortsBefore s i j := lt_asymm h
      simp [e, hasymm]
    · have hbefore := (sortsBefore_or haddr hi hj hne).resolve_right h
      simp [e, hbefore]
  · obtain ⟨⟨h', list'⟩, hsort, hl', hframe⟩ :=
      gListSort_spec (fun x y => sortIrqs s (data x) (data y)) hl hn
    have hmap := MergeSort.sort_map data (fun i j => decide (sortIrqs s i j ≤ 0)) l
    have hsorted := sort_sortsBefore hdata haddr
    refine ⟨h', list', _, hsort, hl', MergeSort.sort_perm _ l, hframe, ?_, fun irqs hperm => ?_⟩
    · rw [hmap]
      exact hsorted
    · rw [hmap]
      refine eq_of_sortsBefore (s := s) ?_ ?_ hsorted
      · exact ((MergeSort.sort_perm _ irqs).trans hperm).trans (MergeSort.sort_perm _ _).symm
      · refine sort_sortsBefore (hperm.nodup_iff.2 hdata) fun i hi j hj => haddr ?_ ?_
        · exact hperm.mem_iff.1 hi
        · exact hperm.mem_iff.1 hj

/-- A list at the address 10 with three nodes, and the irqs 0, 1 and 2. -/
def threeNodes : Links ℕ where
  next := fun x => if x = 10 then some 20 else if x = 20 then some 30 else none
  prev := fun x => if x = 30 then some 20 else if x = 20 then some 10 else none

/-- Two network devices with the same load, and one that is not, in front of them. -/
def threeIrqs : State :=
  { State.initial {} fun _ => 0 with
    irqs := fun i => if i = 0 then { load := 7 } else { irqClass := .eth, load := 5 } }

/-- The last node becomes the first, and the first one the last. -/
theorem sortIrqList_links_three : ∃ h' l',
    gListSort (fun x y => sortIrqs threeIrqs (x / 10 - 1) (y / 10 - 1)) 4 threeNodes (some 10) = some (h', some 30) ∧
    IsList h' (some 30) l' ∧ l' = [30, 20, 10] ∧ h'.prev 30 = none ∧ h'.next 10 = none := by
  have hl : IsList threeNodes (some 10) [10, 20, 30] := ⟨by decide, ⟨rfl, rfl, rfl, rfl⟩, ⟨rfl, rfl, rfl, trivial⟩⟩
  have hdata : ([10, 20, 30].map fun x => x / 10 - 1).Nodup := by decide
  have haddr : Set.InjOn threeIrqs.opts.irqAddr {i | i ∈ [10, 20, 30].map fun x => x / 10 - 1} :=
    fun _ _ _ _ h => h
  obtain ⟨-, -, h', list', l', hsort, hlist, -⟩ :=
    sortIrqList_links threeIrqs hl hdata haddr (n := 4) (by decide)
  have hrun : (gListSort (fun x y => sortIrqs threeIrqs (x / 10 - 1) (y / 10 - 1)) 4 threeNodes (some 10)).map
      (fun r => (r.2, [30, 20, 10].map r.1.next)) = some (some 30, [some 20, some 10, none]) := by
    decide +kernel
  rw [hsort, Option.map_some, Option.some.injEq, Prod.mk.injEq] at hrun
  obtain ⟨rfl, hnext⟩ := hrun
  simp only [List.map_cons, List.map_nil, List.cons.injEq, and_true] at hnext
  have hl' : l' = [30, 20, 10] := hlist.seg.unique ⟨rfl, hnext.1, hnext.2.1, hnext.2.2⟩
  subst hl'
  exact ⟨h', _, hsort, hlist, rfl, hlist.back.1, hnext.2.2⟩

end IrqBalance
