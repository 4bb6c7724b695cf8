import IrqBalance.Attribution
import IrqBalance.Lib.Branches

/-!
# Parts of the counts above an object

`compute_irq_branch_load_share` divides the load of an object by the irqs that were counted at it, at everything
below it, and by a part of those above it. In a tree of any shape no count goes to two cpus
(`shares_counted_once`). The tree that `parse_cpu_tree` builds is one, where it is a forest.
-/

namespace IrqBalance

open Branches (Agree Path share branch)
open Layers (IsForest)

variable {s : State} {objs cpus : List ObjId} {d o p c : ObjId} {l : List ObjId} {n : ℕ}

/-- `local_irq_counts` as `compute_irq_branch_load_share` computes it. -/
def countLocalIrqs (s : State) (d : ObjId) : Option UInt64 := do
  let own ← getParentBranchIrqCountShare s (depthBound s) d
  (s.objs d).children.foldlM (getChildrenBranchIrqCount s (depthBound s)) own

theorem computeIrqBranchLoadShare_divides (s : State) (d : ObjId) : computeIrqBranchLoadShare d s =
    if (s.objs d).interrupts = [] then some s
    else (countLocalIrqs s d).bind fun n =>
      forEachIrq (fun s => (s.objs d).interrupts) (assignLoadSlice (if n = 0 then 1 else (s.objs d).load / n)) s := by
  simp only [computeIrqBranchLoadShare, countLocalIrqs, Option.bind_eq_bind, Option.bind_assoc]

/-- The irqs counted at an object. -/
def State.countAt (s : State) (o : ObjId) : ℕ := (s.objs o).irqCount.toNat

/-- Objects that form a tree, or several, of any shape. -/
structure ObjTree (s : State) (objs : List ObjId) : Prop extends Agree s.kids s.parents objs where
  /-- the way up from an object ends -/
  ends : ∀ o ∈ objs, ∃ l, Path s.parents o l
  allocated : ∀ o ∈ objs, o < s.nextObj
  /-- `g_list_length` does not wrap -/
  lengths : ∀ p ∈ objs, (s.kids p).length < 2 ^ 32

theorem ObjTree.length_lt (h : ObjTree s objs) : objs.length < depthBound s := by
  have hle : objs.length ≤ (List.range s.nextObj).length :=
    (h.nodup.subperm fun o ho => List.mem_range.2 (h.allocated o ho)).length_le
  rw [List.length_range] at hle
  unfold depthBound
  omega

/-- `get_parent_branch_irq_count_share` does not wrap. -/
theorem ObjTree.parentShare (h : ObjTree s objs) (hfits : (objs.map s.countAt).sum < 2 ^ 64) (ho : o ∈ objs)
    (hl : Path s.parents o l) (hn : l.length ≤ n) : ∃ r, getParentBranchIrqCountShare s n o = some r ∧
      r.toNat = share s.kids s.parents s.countAt n o := by
  induction hl generalizing n with
  | @root o hnone =>
    obtain ⟨n, rfl⟩ := Nat.exists_eq_add_of_le' hn
    have hnone' : (s.objs o).parent = none := hnone
    change ∃ r, getParentBranchIrqCountShare s (n + 1) o = some r ∧ r.toNat = share _ _ _ (n + 1) o
    rw [getParentBranchIrqCountShare, share, hnone, hnone']
    exact ⟨_, rfl, rfl⟩
  | @step c p l hsome hp ih =>
    cases n with
    | zero => exact absurd hn (Nat.not_succ_le_zero _)
    | succ n =>
      have hsome' : (s.objs c).parent = some p := hsome
      have hp' := h.parent_mem c ho p hsome
      have hmem := (h.mem_kids p hp' c).2 ⟨ho, hsome⟩
      have hkids : (s.objs p).children ≠ [] := List.ne_nil_of_mem hmem
      obtain ⟨r, hr, hrn⟩ := ih hp' (Nat.le_of_succ_le_succ hn)
      have hlength : (UInt64.ofNat (s.objs p).children.length).toNat = (s.kids p).length :=
        UInt64.toNat_ofNat_of_lt' ((h.lengths p hp').trans (by decide))
      have hquot : (r / UInt64.ofNat (s.objs p).children.length).toNat =
          share s.kids s.parents s.countAt n p / (s.kids p).length := by
        rw [UInt64.toNat_div, hrn, hlength]
      have hle := h.share_add_below_le (w := s.countAt) ho (.step hsome hp) (n + 1) 0
      rw [share, hsome] at hle ⊢
      rw [getParentBranchIrqCountShare, hsome']
      dsimp only at hle ⊢
      refine ⟨r / UInt64.ofNat (s.objs p).children.length + (s.objs c).irqCount, ?_, ?_⟩
      · rw [hr, Option.bind_eq_bind, Option.bind_some, if_neg hkids]
      · rw [Sums.toNat_add, hquot]
        · rfl
        · rw [hquot]
          exact (Nat.le_add_right _ _).trans_lt (hle.trans_lt hfits)

/-- Nor does `get_children_branch_irq_count`, where the exact sum fits. -/
theorem ObjTree.childrenCount (h : ObjTree s objs) (ho : o ∈ objs) (hl : Path s.parents o l)
    (hn : objs.length < n + l.length) {total : UInt64} (hfits : total.toNat + branch s.kids s.countAt n o < 2 ^ 64) :
    ∃ r, getChildrenBranchIrqCount s n total o = some r ∧
      r.toNat = total.toNat + branch s.kids s.countAt n o := by
  induction n generalizing o l total with
  | zero =>
    have hle := h.path_length_le ho hl
    omega
  | succ n ih =>
    rw [branch] at hfits ⊢
    obtain ⟨r, hr, hrn⟩ := foldlM_childrenCount (b := branch s.kids s.countAt n) (l := s.kids o) (n := n)
      (fun c hc _ => by
        obtain ⟨hc', e⟩ := (h.mem_kids o ho c).1 hc
        exact ih hc' (.step e hl) (by rw [List.length_cons]; omega)) total (by omega)
    have hown : (r + (s.objs o).irqCount).toNat = r.toNat + s.countAt o :=
      Sums.toNat_add (show r.toNat + s.countAt o < 2 ^ 64 by omega)
    refine ⟨r + (s.objs o).irqCount, ?_, by omega⟩
    rw [getChildrenBranchIrqCount, show (s.objs o).children = s.kids o from rfl, hr]
    rfl

/-- `local_irq_counts` has at least the irqs of the object itself. -/
theorem ObjTree.countLocalIrqs (h : ObjTree s objs) (hfits : (objs.map s.countAt).sum < 2 ^ 64) (hd : d ∈ objs) :
    ∃ r, IrqBalance.countLocalIrqs s d = some r ∧ s.countAt d ≤ r.toNat := by
  obtain ⟨l, hl⟩ := h.ends d hd
  have hdepth := h.length_lt
  obtain ⟨own, hown, hownN⟩ := h.parentShare hfits hd hl ((h.path_length_le hd hl).trans hdepth.le)
  have hle := h.share_add_below_le (w := s.countAt) hd hl (depthBound s) (depthBound s)
  obtain ⟨r, hr, hrn⟩ := foldlM_childrenCount (b := branch s.kids s.countAt (depthBound s)) (l := s.kids d)
    (n := depthBound s) (fun c hc _ => by
      obtain ⟨hc', e⟩ := (h.mem_kids d hd c).1 hc
      exact h.childrenCount hc' (.step e hl) (by omega)) own (by omega)
  have hself : s.countAt d ≤ share s.kids s.parents s.countAt (depthBound s) d := by
    rw [depthBound, Branches.share_succ]
    exact Nat.le_add_left _ _
  refine ⟨r, ?_, by omega⟩
  rw [IrqBalance.countLocalIrqs, hown]
  exact hr

theorem mapM_isSome {α β : Type} {f : α → Option β} {l : List α} {g : α → ℕ} {v : β → ℕ}
    (h : ∀ a ∈ l, ∃ r, f a = some r ∧ v r = g a) : ∃ rs, l.mapM f = some rs ∧ rs.map v = l.map g := by
  induction l with
  | nil => exact ⟨[], rfl, rfl⟩
  | cons a l ih =>
    obtain ⟨r, hr, hval⟩ := h a List.mem_cons_self
    obtain ⟨rs, hrs, hvals⟩ := ih fun b hb => h b (List.mem_cons_of_mem a hb)
    refine ⟨r :: rs, ?_, by rw [List.map_cons, List.map_cons, hval, hvals]⟩
    rw [List.mapM_cons, hr, hrs]
    rfl

/-- **The cpus together get no more than all irqs that were counted in the tree, and no object divides its load by
less than its own irqs.** The cpus are some of the objects without children. -/
theorem shares_counted_once (h : ObjTree s objs) (hfits : (objs.map s.countAt).sum < 2 ^ 64) (hcpus : cpus.Nodup)
    (hleaf : ∀ k ∈ cpus, k ∈ objs ∧ s.kids k = []) :
    (∃ shares, cpus.mapM (getParentBranchIrqCountShare s (depthBound s)) = some shares ∧
      (shares.map UInt64.toNat).sum ≤ (objs.map s.countAt).sum) ∧
    ∀ d ∈ objs, ∃ r, countLocalIrqs s d = some r ∧ (s.objs d).irqCount ≤ r := by
  refine ⟨?_, fun d hd => ?_⟩
  · obtain ⟨shares, hshares, hvals⟩ := mapM_isSome (g := share s.kids s.parents s.countAt (depthBound s))
      (v := UInt64.toNat) fun k hk => by
        obtain ⟨l, hl⟩ := h.ends k (hleaf k hk).1
        exact h.parentShare hfits (hleaf k hk).1 hl
          ((h.path_length_le (hleaf k hk).1 hl).trans h.length_lt.le)
    refine ⟨shares, hshares, ?_⟩
    rw [hvals]
    refine le_trans (Sums.sum_map_le_of_subset hcpus (fun k hk => ?_) _) (h.sum_leaves_le (depthBound s))
    exact List.mem_filter.2 ⟨(hleaf k hk).1, by rw [(hleaf k hk).2]; rfl⟩
  · obtain ⟨r, hr, hle⟩ := h.countLocalIrqs hfits hd
    exact ⟨r, hr, UInt64.le_iff_toNat_le.2 hle⟩

/-! ### The tree of `parse_cpu_tree` -/

theorem TopoForest.parents_eq (hf : TopoForest s) (h : TopoWf s) (hp : p ∈ s.topology) (hc : c ∈ s.kids p) :
    s.parents c = some p := by
  have hlayer : ∀ {P K : List ObjId}, IsForest s.kids s.parents {p | p ∈ P} {k | k ∈ K} →
      (∀ p ∈ P, ∀ k ∈ s.kids p, k ∈ K) → p ∈ P → s.parents c = some p := fun {P K} hforest hsub hp => by
    obtain ⟨q, -, e, -, -, huniq⟩ := hforest c (hsub p hp c hc)
    rw [e, huniq p hp hc]
  rcases (mem_topology h).1 hp with rfl | hp | hp | hp
  · rw [h.node_kids] at hc
    exact h.package_parent c hc
  · exact hlayer hf.2.1 h.package_kids hp
  · exact hlayer hf.1 h.cache_kids hp
  · rw [h.cpu_kids p hp] at hc
    cases hc

/-- **A forest that `parse_cpu_tree` has built is a tree.** -/
theorem TopoForest.objTree (hf : TopoForest s) (h : TopoWf s)
    (hlengths : ∀ p ∈ s.topology, (s.kids p).length < 2 ^ 32) : ObjTree s s.topology where
  nodup := h.topology_nodup
  kids_nodup p hp := by
    rcases (mem_topology h).1 hp with rfl | hp | hp | hp
    · rw [h.node_kids]
      exact h.packages_nodup
    · exact hf.2.1.kids_nodup h.package_kids hp
    · exact hf.1.kids_nodup h.cache_kids hp
    · rw [h.cpu_kids p hp]
      exact List.nodup_nil
  mem_kids p hp c := by
    refine ⟨fun hc => ⟨h.mem_topology_of_kid hp hc, hf.parents_eq h hp hc⟩, fun ⟨hc, e⟩ => ?_⟩
    rcases (mem_topology h).1 hc with rfl | hc | hc | hc
    · rw [h.node_parent] at e
      cases e
    · rw [h.package_parent c hc, Option.some.injEq] at e
      rw [← e, h.node_kids]
      exact hc
    · obtain ⟨q, -, eq, hk⟩ := h.in_package c hc
      rw [eq, Option.some.injEq] at e
      exact e ▸ hk
    · obtain ⟨q, -, eq, hk⟩ := h.in_cache c hc
      rw [eq, Option.some.injEq] at e
      exact e ▸ hk
  parent_mem c hc p e := by
    rcases (mem_topology h).1 hc with rfl | hc | hc | hc
    · rw [h.node_parent] at e
      cases e
    · rw [h.package_parent c hc, Option.some.injEq] at e
      exact e ▸ unspecifiedNode_mem_topology h
    · obtain ⟨q, hq, eq, -⟩ := h.in_package c hc
      rw [eq, Option.some.injEq] at e
      exact e ▸ (mem_topology h).2 (Or.inr (Or.inl hq))
    · obtain ⟨q, hq, eq, -⟩ := h.in_cache c hc
      rw [eq, Option.some.injEq] at e
      exact e ▸ (mem_topology h).2 (Or.inr (Or.inr (Or.inl hq)))
  ends o ho := by
    obtain ⟨-, -, hpath⟩ := h.climb (P := fun _ o => ∃ l, Path s.parents o l) ⟨_, .root h.node_parent⟩
      (fun _ p d _ _ e ⟨l, hl⟩ => ⟨_, .step e hl⟩) ho
    exact hpath
  allocated o ho := by
    rcases (mem_topology h).1 ho with rfl | ho | ho | ho
    · exact h.node_lt
    · exact (h.isPackage o ho).lt
    · exact (h.isCache o ho).lt
    · exact (h.isCpu o ho).lt
  lengths := hlengths

/-- An object with two children, the first of which has three: 10 irqs were counted at the root and 5 at its first
child. -/
def unevenTree : State :=
  { State.initial {} fun _ => 0 with
    nextObj := 6
    objs := fun o =>
      if o = 0 then { irqCount := 10, children := [1, 2] }
      else if o = 1 then { irqCount := 5, parent := some 0, children := [3, 4, 5] }
      else if o = 2 then { irqCount := 1, parent := some 0 }
      else { irqCount := 2, parent := some 1 } }

theorem unevenTree_objTree : ObjTree unevenTree (List.range 6) where
  nodup := by decide
  kids_nodup := by decide
  mem_kids p hp c := by
    have hlt : ∀ p ∈ List.range 6, ∀ c ∈ unevenTree.kids p, c ∈ List.range 6 := by decide
    have hiff : ∀ p ∈ List.range 6, ∀ c ∈ List.range 6, c ∈ unevenTree.kids p ↔ unevenTree.parents c = some p := by
      decide
    exact ⟨fun hc => ⟨hlt p hp c hc, (hiff p hp c (hlt p hp c hc)).1 hc⟩, fun ⟨hc, e⟩ => (hiff p hp c hc).2 e⟩
  parent_mem c hc p e := by
    have hparents : ∀ c ∈ List.range 6, ∀ p ∈ (unevenTree.parents c).toList, p ∈ List.range 6 := by decide
    exact hparents c hc p (Option.mem_toList.2 e)
  ends o ho := by
    have hcases : ∀ o ∈ List.range 6, unevenTree.parents o = none ∨ unevenTree.parents o = some 0 ∨
        unevenTree.parents o = some 1 := by
      decide
    have hroot : Path unevenTree.parents 0 [0] := .root rfl
    rcases hcases o ho with e | e | e
    · exact ⟨_, .root e⟩
    · exact ⟨_, .step e hroot⟩
    · exact ⟨_, .step e (.step rfl hroot)⟩
  allocated o ho := List.mem_range.1 ho
  lengths := by decide

/-- Each of the three gets 3 of the 10 irqs, and its share of them is rounded down. -/
theorem shares_counted_once_uneven : ∃ shares,
    [2, 3, 4, 5].mapM (getParentBranchIrqCountShare unevenTree (depthBound unevenTree)) = some shares ∧
      shares = [6, 5, 5, 5] ∧ (shares.map UInt64.toNat).sum ≤ 22 := by
  have hcpus : [2, 3, 4, 5].Nodup := by decide
  obtain ⟨⟨shares, hshares, hle⟩, -⟩ :=
    shares_counted_once unevenTree_objTree (by decide +kernel) hcpus (by decide +kernel)
  refine ⟨shares, hshares, ?_, hle⟩
  have hrun : [2, 3, 4, 5].mapM (getParentBranchIrqCountShare unevenTree (depthBound unevenTree)) =
      some [6, 5, 5, 5] := by
    decide +kernel
  exact Option.some.inj (hshares.symm.trans hrun)

end IrqBalance
