import IrqBalance.Lib.PostOrder
import IrqBalance.Moves

/-!
# Passes over the tree

`clear_obj_stats`, `set_load` and `accumulate_interrupts` visit the tree in post-order, and
`compute_irq_branch_load_share` is called on one object after the other. What `parse_proc_stat` leaves behind
is a statement about each object: `Summed` for the sums, `Shared` for the loads of the irqs.
-/

namespace IrqBalance

open PostOrder (visit Below Ranked)

variable {s s' t : State} {d o : ObjId} {i : IrqId}

/-! ### The tree -/

/-- The levels of the tree. -/
def ObjType.rank : ObjType → ℕ
  | .cpu => 0
  | .cache => 1
  | .package => 2
  | .node => 3

/-- The level of an object in the tree. -/
def State.rank (s : State) (o : ObjId) : ℕ := (s.objs o).objType.rank

theorem rank_lt_depthBound (s : State) (o : ObjId) : s.rank o < depthBound s := by
  have hrank : s.rank o ≤ 3 := by
    unfold State.rank
    cases (s.objs o).objType <;> decide
  unfold depthBound
  omega

theorem TopoWf.ranked (h : TopoWf s) : Ranked {o | o ∈ s.topology} s.rank s.kids where
  mem _ hd _ hc := h.mem_topology_of_kid hd hc
  lt d hd c hc := by
    unfold State.rank
    rcases (mem_topology h).1 hd with rfl | hd | hd | hd
    · rw [h.node_kids] at hc
      rw [h.nodeType, (h.isPackage c hc).objType]
      decide
    · rw [(h.isPackage d hd).objType, (h.isCache c (h.package_kids d hd c hc)).objType]
      decide
    · rw [(h.isCache d hd).objType, (h.isCpu c (h.cache_kids d hd c hc)).objType]
      decide
    · rw [h.cpu_kids d hd] at hc
      cases hc

/-- Everything is below the node. -/
theorem TopoWf.below_node (h : TopoWf s) (ho : o ∈ s.topology) : Below s.kids unspecifiedNode o := by
  have hpackage : ∀ p ∈ s.packages, Below s.kids unspecifiedNode p := fun p hp =>
    .single (by rw [h.node_kids]; exact hp)
  have hcache : ∀ c ∈ s.cacheDomains, Below s.kids unspecifiedNode c := fun c hc => by
    obtain ⟨p, hp, -, hk⟩ := h.in_package c hc
    exact (hpackage p hp).tail hk
  rcases (mem_topology h).1 ho with rfl | ho | ho | ho
  · exact .refl
  · exact hpackage o ho
  · exact hcache o ho
  · obtain ⟨c, hc, -, hk⟩ := h.in_cache o ho
    exact (hcache c hc).tail hk

/-- What holds of the root, and goes from an object to its children, holds of every object; `k` is its
depth. -/
theorem TopoWf.climb (h : TopoWf s) {P : ℕ → ObjId → Prop} (hroot : P 1 unspecifiedNode)
    (hkid : ∀ k p d, p ∈ s.topology → d ∈ s.kids p → s.parents d = some p → P k p → P (k + 1) d)
    (hd : d ∈ s.topology) : ∃ k ≤ 4, P k d := by
  have hpackage : ∀ p ∈ s.packages, P 2 p := fun p hp =>
    hkid 1 unspecifiedNode p (unspecifiedNode_mem_topology h) (by rw [h.node_kids]; exact hp)
      (h.package_parent p hp) hroot
  have hcache : ∀ c ∈ s.cacheDomains, P 3 c := fun c hc => by
    obtain ⟨p, hp, e, hk⟩ := h.in_package c hc
    exact hkid 2 p c ((mem_topology h).2 (Or.inr (Or.inl hp))) hk e (hpackage p hp)
  rcases (mem_topology h).1 hd with rfl | hd | hd | hd
  · exact ⟨1, by omega, hroot⟩
  · exact ⟨2, by omega, hpackage d hd⟩
  · exact ⟨3, by omega, hcache d hd⟩
  · obtain ⟨c, hc, e, hk⟩ := h.in_cache d hd
    exact ⟨4, by omega, hkid 3 c d ((mem_topology h).2 (Or.inr (Or.inr (Or.inl hc)))) hk e (hcache c hc)⟩

theorem kids_of_noLoads (e : t.noLoads = s.noLoads) : t.kids = s.kids :=
  show t.noLoads.kids = s.noLoads.kids by rw [e]

theorem interrupts_of_noLoads (e : t.noLoads = s.noLoads) (o : ObjId) :
    (t.objs o).interrupts = (s.objs o).interrupts :=
  show (t.noLoads.objs o).interrupts = (s.noLoads.objs o).interrupts by rw [e]

theorem topology_of_noLoads (e : t.noLoads = s.noLoads) : t.topology = s.topology :=
  show t.noLoads.topology = s.noLoads.topology by rw [e]

/-- **A pass from the node establishes for every object what its action does for one.** -/
theorem TopoWf.visit_node (h : TopoWf s) {put : ObjId → State → Option State} (Inv : State → Prop)
    (Q : ObjId → State → Prop) (hkids : ∀ t, Inv t → t.kids = s.kids)
    (hput : ∀ d ∈ s.topology, ∀ t t', Inv t → (∀ c ∈ s.kids d, Q c t) → put d t = some t' →
      Inv t' ∧ Q d t')
    (hkeep : ∀ d ∈ s.topology, ∀ o ∈ s.topology, ∀ t t', Inv t → (∀ c ∈ s.kids d, Q c t) → Q o t →
      put d t = some t' → Q o t')
    {n : ℕ} {u u' : State} (hu : Inv u) (hv : visit State.kids put n unspecifiedNode u = some u') :
    Inv u' ∧ ∀ o ∈ s.topology, Q o u' := by
  obtain ⟨hinv, -, hbelow⟩ := PostOrder.visit_rule h.ranked Q hkids hput hkeep n
    (unspecifiedNode_mem_topology h) hu hv
  exact ⟨hinv, fun o ho => hbelow o (h.below_node ho)⟩

/-! ### `set_load` -/

/-- `set_load` on an object whose children are done. -/
def putLoad (d : ObjId) (s : State) : Option State :=
  if (s.objs d).children = [] then some s
  else some (s.modObj d fun o => { o with load := sumLoads s o.children })

theorem setLoad_eq_visit (n : ℕ) (d : ObjId) (s : State) :
    setLoad n d s = visit State.kids putLoad n d s := by
  induction n generalizing d s with
  | zero => rfl
  | succ n ih =>
    have hfun : (fun s c => setLoad n c s) = fun s c => visit State.kids putLoad n c s := by
      funext s c
      exact ih c s
    rw [setLoad, visit, ← hfun]
    by_cases hnil : (s.objs d).children = []
    · have hput : putLoad d s = some s := by
        unfold putLoad
        rw [if_pos hnil]
      rw [if_pos hnil, State.kids, hnil]
      exact hput.symm
    · rw [if_neg hnil, State.kids]
      cases ht : (s.objs d).children.foldlM (fun s c => setLoad n c s) s with
      | none => rfl
      | some t =>
        have hnoLoads := Loops.foldlM_view State.noLoads (fun c _ u u' hu => setLoad_noLoads n c hu) ht
        have hkids : (t.objs d).children = (s.objs d).children :=
          congrFun (kids_of_noLoads hnoLoads) d
        change some _ = putLoad d t
        unfold putLoad
        rw [hkids, if_neg hnil]

/-- The sum of the loads of the cpus below an object, with a bound on the depth. -/
def State.treeLoad (s : State) : ℕ → ObjId → UInt64
  | 0, _ => 0
  | n + 1, d =>
    if s.kids d = [] then (s.objs d).load
    else (s.kids d).foldl (fun acc c => acc + s.treeLoad n c) 0

theorem TopoWf.treeLoad_fuel (h : TopoWf s) {n m : ℕ} (hd : d ∈ s.topology) (hn : s.rank d < n)
    (hm : s.rank d < m) : s.treeLoad n d = s.treeLoad m d := by
  induction n generalizing d m with
  | zero => exact absurd hn (Nat.not_lt_zero _)
  | succ n ih =>
    cases m with
    | zero => exact absurd hm (Nat.not_lt_zero _)
    | succ m =>
      rw [State.treeLoad, State.treeLoad]
      split_ifs
      · rfl
      · apply List.foldl_ext
        intro acc c hc
        have hlt := h.ranked.lt d hd c hc
        rw [ih (m := m) (h.mem_topology_of_kid hd hc) (by omega) (by omega)]

/-- What `set_load` keeps. -/
structure LoadInv (s t : State) : Prop where
  noLoads_eq : t.noLoads = s.noLoads
  irqs_eq : t.irqs = s.irqs
  leaf : ∀ o, s.kids o = [] → (t.objs o).load = (s.objs o).load

theorem LoadInv.put (h : TopoWf s) (hd : d ∈ s.topology) (ht : LoadInv s t)
    (hkids : ∀ c ∈ s.kids d, (t.objs c).load = s.treeLoad (s.rank c + 1) c)
    (hput : putLoad d t = some s') :
    LoadInv s s' ∧ ∀ o, (s'.objs o).load =
      if o = d then s.treeLoad (s.rank d + 1) d else (t.objs o).load := by
  have hchildren : (t.objs d).children = s.kids d := congrFun (kids_of_noLoads ht.noLoads_eq) d
  unfold putLoad at hput
  rw [hchildren] at hput
  split_ifs at hput with hnil
  · cases hput
    refine ⟨ht, fun o => ?_⟩
    rw [State.treeLoad, if_pos hnil, ← ht.leaf d hnil]
    split_ifs with ho
    · rw [ho]
    · rfl
  · cases hput
    have hsum : sumLoads t (s.kids d) = s.treeLoad (s.rank d + 1) d := by
      rw [State.treeLoad, if_neg hnil]
      apply List.foldl_ext
      intro acc c hc
      rw [hkids c hc, h.treeLoad_fuel (h.mem_topology_of_kid hd hc) (Nat.lt_succ_self _)
        (h.ranked.lt d hd c hc)]
    refine ⟨⟨(noLoads_modObj (by intro _; rfl) t d).trans ht.noLoads_eq, ht.irqs_eq, fun o ho => ?_⟩,
      fun o => ?_⟩
    · have hod : o ≠ d := fun e => hnil (e ▸ ho)
      rw [State.modObj_objs_of_ne hod]
      exact ht.leaf o ho
    · rw [State.modObj_objs]
      split_ifs with ho
      · subst ho
        exact (congrArg (sumLoads t) hchildren).trans hsum
      · rfl

theorem TopoWf.setLoad (h : TopoWf s) {n : ℕ} (hv : setLoad n unspecifiedNode s = some t) :
    LoadInv s t ∧ ∀ o ∈ s.topology, (t.objs o).load = s.treeLoad (s.rank o + 1) o := by
  rw [setLoad_eq_visit] at hv
  refine h.visit_node (LoadInv s) (fun o t => (t.objs o).load = s.treeLoad (s.rank o + 1) o)
    (fun t ht => kids_of_noLoads ht.noLoads_eq) ?_ ?_ ⟨rfl, rfl, fun _ _ => rfl⟩ hv
  · intro d hd t t' ht hkids hput
    obtain ⟨hinv, e⟩ := ht.put h hd hkids hput
    refine ⟨hinv, ?_⟩
    rw [e, if_pos rfl]
  · intro d hd o ho t t' ht hkids hq hput
    rw [(ht.put h hd hkids hput).2]
    split_ifs with hod
    · rw [hod]
    · exact hq

theorem TopoWf.setLoad_isSome (h : TopoWf s) : ∃ t, IrqBalance.setLoad (depthBound s) unspecifiedNode s = some t := by
  have hput : ∀ d ∈ {o | o ∈ s.topology}, ∀ t : State, t.kids = s.kids →
      ∃ t', putLoad d t = some t' ∧ t'.kids = s.kids := by
    intro d _ t ht
    unfold putLoad
    split_ifs
    · exact ⟨t, rfl, ht⟩
    · exact ⟨_, rfl, (kids_of_noLoads (noLoads_modObj (by intro _; rfl) t d)).trans ht⟩
  obtain ⟨t, ht, -⟩ := PostOrder.visit_isSome h.ranked (fun t : State => t.kids = s.kids) (fun _ e => e) hput
    (depthBound s) (unspecifiedNode_mem_topology h) (rank_lt_depthBound s _) rfl
  exact ⟨t, (setLoad_eq_visit _ _ s).trans ht⟩

/-! ### `accumulate_interrupts` -/

/-- `accumulate_interrupts` on an object whose children are done. -/
def putIrqCount (d : ObjId) (s : State) : Option State :=
  some (s.modObj d fun o => { o with irqCount := sumIrqCounts s o.interrupts })

theorem accumulateInterrupts_eq_visit (n : ℕ) (d : ObjId) (s : State) :
    accumulateInterrupts n d s = visit State.kids putIrqCount n d s := by
  induction n generalizing d s with
  | zero => rfl
  | succ n ih =>
    have hfun : (fun s c => accumulateInterrupts n c s) = fun s c => visit State.kids putIrqCount n c s := by
      funext s c
      exact ih c s
    rw [accumulateInterrupts, visit, ← hfun]
    rfl

/-- What `accumulate_interrupts` keeps. -/
structure CountInv (s t : State) : Prop where
  noLoads_eq : t.noLoads = s.noLoads
  irqs_eq : t.irqs = s.irqs
  load_eq : ∀ o, (t.objs o).load = (s.objs o).load

theorem sumIrqCounts_of_irqs (e : t.irqs = s.irqs) : sumIrqCounts t = sumIrqCounts s := by
  unfold sumIrqCounts
  rw [e]

theorem CountInv.put (ht : CountInv s t) (hput : putIrqCount d t = some s') :
    CountInv s s' ∧ ∀ o, (s'.objs o).irqCount =
      if o = d then sumIrqCounts s (s.objs d).interrupts else (t.objs o).irqCount := by
  cases hput
  refine ⟨⟨(noLoads_modObj (by intro _; rfl) t d).trans ht.noLoads_eq, ht.irqs_eq, fun o => ?_⟩,
    fun o => ?_⟩ <;> rw [State.modObj_objs]
  · rw [← ht.load_eq o]
    split_ifs <;> rfl
  · split_ifs with ho
    · subst ho
      rw [← interrupts_of_noLoads ht.noLoads_eq, sumIrqCounts_of_irqs ht.irqs_eq]
    · rfl

theorem TopoWf.accumulateInterrupts (h : TopoWf s) {n : ℕ}
    (hv : accumulateInterrupts n unspecifiedNode s = some t) :
    CountInv s t ∧
      ∀ o ∈ s.topology, (t.objs o).irqCount = sumIrqCounts s (s.objs o).interrupts := by
  rw [accumulateInterrupts_eq_visit] at hv
  refine h.visit_node (CountInv s) (fun o t => (t.objs o).irqCount = sumIrqCounts s (s.objs o).interrupts)
    (fun t ht => kids_of_noLoads ht.noLoads_eq) ?_ ?_ ⟨rfl, rfl, fun _ => rfl⟩ hv
  · intro d _ t t' ht _ hput
    obtain ⟨hinv, e⟩ := ht.put hput
    refine ⟨hinv, ?_⟩
    rw [e, if_pos rfl]
  · intro d _ o _ t t' ht _ hq hput
    rw [(ht.put hput).2]
    split_ifs with hod
    · rw [hod]
    · exact hq

theorem TopoWf.accumulateInterrupts_isSome (h : TopoWf s) :
    ∃ t, IrqBalance.accumulateInterrupts (depthBound s) unspecifiedNode s = some t := by
  have hput : ∀ d ∈ {o | o ∈ s.topology}, ∀ t : State, t.kids = s.kids →
      ∃ t', putIrqCount d t = some t' ∧ t'.kids = s.kids := fun d _ t ht =>
    ⟨_, rfl, (kids_of_noLoads (noLoads_modObj (by intro _; rfl) t d)).trans ht⟩
  obtain ⟨t, ht, -⟩ := PostOrder.visit_isSome h.ranked (fun t : State => t.kids = s.kids) (fun _ e => e) hput
    (depthBound s) (unspecifiedNode_mem_topology h) (rank_lt_depthBound s _) rfl
  exact ⟨t, (accumulateInterrupts_eq_visit _ _ s).trans ht⟩

/-! ### The sums -/

/-- The objects have the sums of the loads below them, and the counts of their irqs. -/
structure Summed (s : State) : Prop where
  load : ∀ o ∈ s.topology, s.kids o ≠ [] → (s.objs o).load = sumLoads s (s.kids o)
  irqCount : ∀ o ∈ s.topology, (s.objs o).irqCount = sumIrqCounts s (s.objs o).interrupts

/-- The first two passes of `parse_proc_stat`. -/
def sumStat (s : State) : Option State := do
  let s ← s.numaNodes.foldlM (fun s d => setLoad (depthBound s) d s) s
  s.numaNodes.foldlM (fun s d => accumulateInterrupts (depthBound s) d s) s

/-- **The first two passes end, and compute the sums.** -/
theorem TopoWf.sumStat (h : TopoWf s) : ∃ t, sumStat s = some t ∧ t.noLoads = s.noLoads ∧
    t.irqs = s.irqs ∧ (∀ o, s.kids o = [] → (t.objs o).load = (s.objs o).load) ∧ Summed t := by
  obtain ⟨u, hu⟩ := h.setLoad_isSome
  obtain ⟨hload, hq⟩ := h.setLoad hu
  have htopo : TopoWf u := h.of_static (static_of_noStats (noStats_of_noLoads hload.noLoads_eq))
  obtain ⟨t, ht⟩ := htopo.accumulateInterrupts_isSome
  obtain ⟨hcount, hq'⟩ := htopo.accumulateInterrupts ht
  refine ⟨t, ?_, hcount.noLoads_eq.trans hload.noLoads_eq, hcount.irqs_eq.trans hload.irqs_eq,
    fun o ho => (hcount.load_eq o).trans (hload.leaf o ho), ?_, ?_⟩
  · unfold IrqBalance.sumStat
    rw [h.numaNodes, Loops.foldlM_singleton, hu]
    change u.numaNodes.foldlM _ u = _
    rw [htopo.numaNodes, Loops.foldlM_singleton, ht]
  · intro o ho hkids
    have hkids' : t.kids = s.kids := kids_of_noLoads (hcount.noLoads_eq.trans hload.noLoads_eq)
    rw [topology_of_noLoads hcount.noLoads_eq, topology_of_noLoads hload.noLoads_eq] at ho
    rw [hkids'] at hkids ⊢
    rw [hcount.load_eq, hq o ho, State.treeLoad, if_neg hkids]
    apply List.foldl_ext
    intro acc c hc
    have hc' := h.mem_topology_of_kid ho hc
    rw [hcount.load_eq, hq c hc', h.treeLoad_fuel hc' (Nat.lt_succ_self _) (h.ranked.lt o ho c hc)]
  · intro o ho
    rw [topology_of_noLoads hcount.noLoads_eq] at ho
    rw [hq' o ho, interrupts_of_noLoads hcount.noLoads_eq, sumIrqCounts_of_irqs hcount.irqs_eq]

/-! ### Walks that write to the irqs -/

/-- Write to all irqs of a list. -/
def State.modIrqs (s : State) (l : List IrqId) (f : IrqInfo → IrqInfo) : State :=
  { s with irqs := fun i => if i ∈ l then f (s.irqs i) else s.irqs i }

theorem modIrqs_irqs (l : List IrqId) (f : IrqInfo → IrqInfo) :
    (s.modIrqs l f).irqs i = if i ∈ l then f (s.irqs i) else s.irqs i := rfl

theorem foldlM_modIrq {f : IrqInfo → IrqInfo} {l : List IrqId} (hl : l.Nodup) (s : State) :
    l.foldlM (fun s i => some (s.modIrq i f)) s = some (s.modIrqs l f) := by
  induction l generalizing s with
  | nil => simp [State.modIrqs]
  | cons i l ih =>
    obtain ⟨hi, hl⟩ := List.nodup_cons.1 hl
    rw [List.foldlM_cons, Option.bind_eq_bind, Option.bind_some, ih hl]
    apply congrArg some
    unfold State.modIrqs State.modIrq
    refine congrArg (fun irqs => { s with irqs := irqs }) (funext fun j => ?_)
    by_cases hj : j = i
    · subst hj; simp [hi]
    · simp [hj]

/-- Writing to the irqs of a list that is not empty, where the writes do not change the list. -/
theorem forEachIrq_modIrq {f : IrqInfo → IrqInfo} {list : State → List IrqId} (hne : list s ≠ [])
    (hnd : (list s).Nodup) (hlist : ∀ t i, list (t.modIrq i f) = list t) :
    forEachIrq list (fun i s => some (s.modIrq i f)) s = some (s.modIrqs (list s) f) := by
  have hunlinks : Loops.UnlinksSelf (fun t => list t = list s) list
      fun i s => some (s.modIrq i f) := by
    intro i t u ht _ hu
    cases hu
    exact ⟨(hlist t i).trans ht, Or.inl (hlist t i)⟩
  unfold forEachIrq
  rw [forEachIrqOn_eq hne]
  exact (Loops.walk_eq_foldlM (fun t ht => ht ▸ hnd) hunlinks rfl).trans (foldlM_modIrq hnd s)

theorem modIrq_interrupts (f : IrqInfo → IrqInfo) (t : State) (i : IrqId) :
    ((t.modIrq i f).objs d).interrupts = (t.objs d).interrupts := rfl

theorem Live.interrupts_nodup (h : Live s) (hd : d ∈ s.topology) : (s.objs d).interrupts.Nodup :=
  h.slot_nodup (some_mem_slots.2 hd)

/-! ### The shares of the irqs -/

/-- `load_slice` of `compute_irq_branch_load_share`. -/
def loadSlice (s : State) (d : ObjId) : Option UInt64 := do
  let own ← getParentBranchIrqCountShare s (depthBound s) d
  let total ← (s.objs d).children.foldlM (getChildrenBranchIrqCount s (depthBound s)) own
  some (if total = 0 then 1 else (s.objs d).load / total)

theorem TopoWf.childrenCount_isSome (h : TopoWf s) (n : ℕ) (hd : d ∈ s.topology) (hn : s.rank d < n)
    (total : UInt64) : ∃ r, getChildrenBranchIrqCount s n total d = some r := by
  induction n generalizing d total with
  | zero => exact absurd hn (Nat.not_lt_zero _)
  | succ n ih =>
    obtain ⟨r, hr, -⟩ := Loops.foldlM_isSome (fun _ => True)
      (f := getChildrenBranchIrqCount s n) (l := (s.objs d).children) (s := total) (fun c hc total _ => by
        obtain ⟨r, hr⟩ := ih (h.mem_topology_of_kid hd hc)
          (Nat.lt_of_lt_of_le (h.ranked.lt d hd c hc) (Nat.le_of_lt_succ hn)) total
        exact ⟨r, hr, trivial⟩) trivial
    refine ⟨r + (s.objs d).irqCount, ?_⟩
    rw [getChildrenBranchIrqCount, hr]
    rfl

theorem TopoWf.parentShare_isSome (h : TopoWf s) (hd : d ∈ s.topology) :
    ∃ r, getParentBranchIrqCountShare s (depthBound s) d = some r := by
  obtain ⟨k, hk, hall⟩ := h.climb
    (P := fun k d => ∀ n, ∃ r, getParentBranchIrqCountShare s (n + k) d = some r) (fun n => by
      have hroot : (s.objs unspecifiedNode).parent = none := h.node_parent
      rw [getParentBranchIrqCountShare, hroot]
      exact ⟨_, rfl⟩) (fun k p d _ hkid e hp n => by
      have e' : (s.objs d).parent = some p := e
      have hne : (s.objs p).children ≠ [] := List.ne_nil_of_mem hkid
      obtain ⟨r, hr⟩ := hp n
      rw [← Nat.add_assoc, getParentBranchIrqCountShare, e']
      dsimp only
      rw [hr, Option.bind_eq_bind, Option.bind_some, if_neg hne]
      exact ⟨_, rfl⟩) hd
  obtain ⟨r, hr⟩ := hall (depthBound s - k)
  rw [Nat.sub_add_cancel (by unfold depthBound; omega)] at hr
  exact ⟨r, hr⟩

/-- No division by zero. -/
theorem TopoWf.loadSlice_isSome (h : TopoWf s) (hd : d ∈ s.topology) :
    ∃ slice, loadSlice s d = some slice := by
  obtain ⟨own, hown⟩ := h.parentShare_isSome hd
  obtain ⟨total, htotal, -⟩ := Loops.foldlM_isSome (fun _ => True)
    (f := getChildrenBranchIrqCount s (depthBound s)) (l := (s.objs d).children) (s := own)
    (fun c hc total _ => by
      obtain ⟨r, hr⟩ := h.childrenCount_isSome (depthBound s) (h.mem_topology_of_kid hd hc)
        (rank_lt_depthBound s c) total
      exact ⟨r, hr, trivial⟩) trivial
  refine ⟨if total = 0 then 1 else (s.objs d).load / total, ?_⟩
  unfold loadSlice
  rw [hown, Option.bind_eq_bind, Option.bind_some, htotal]
  rfl

/-- The load of an irq with the given slice. -/
def IrqInfo.sliced (slice : UInt64) (info : IrqInfo) : UInt64 :=
  let load := (info.irqCount - info.lastIrqCount) * slice
  if load = 0 then 1 else load

theorem computeIrqBranchLoadShare_eq {slice : UInt64} (hslice : loadSlice s d = some slice)
    (hnd : (s.objs d).interrupts.Nodup) : computeIrqBranchLoadShare d s =
      some (s.modIrqs (s.objs d).interrupts fun info => { info with load := info.sliced slice }) := by
  unfold computeIrqBranchLoadShare
  split_ifs with hnil
  · rw [hnil]
    simp [State.modIrqs]
  · obtain ⟨own, hown, hslice⟩ := Option.bind_eq_some_iff.1 hslice
    obtain ⟨total, htotal, hslice⟩ := Option.bind_eq_some_iff.1 hslice
    cases hslice
    rw [hown, Option.bind_eq_bind, Option.bind_some, htotal]
    exact forEachIrq_modIrq hnil hnd fun t i => modIrq_interrupts _ t i

/-- The irq without its load. -/
def IrqInfo.noLoad (info : IrqInfo) : IrqInfo := { info with load := 0 }

/-- The state without the loads of the irqs. -/
def State.noIrqLoads (s : State) : State := { s with irqs := fun i => (s.irqs i).noLoad }

theorem noIrqLoads_modIrqs {f : IrqInfo → IrqInfo} (hf : ∀ info, (f info).noLoad = info.noLoad)
    (s : State) (l : List IrqId) : (s.modIrqs l f).noIrqLoads = s.noIrqLoads := by
  unfold State.noIrqLoads
  refine congrArg (fun irqs => { s with irqs := irqs }) (funext fun i => ?_)
  rw [modIrqs_irqs]
  split_ifs
  · exact hf _
  · rfl

theorem objs_of_noIrqLoads (e : t.noIrqLoads = s.noIrqLoads) : t.objs = s.objs :=
  show t.noIrqLoads.objs = s.noIrqLoads.objs by rw [e]

theorem getParentBranchIrqCountShare_of_objs (e : t.objs = s.objs) (n : ℕ) (d : ObjId) :
    getParentBranchIrqCountShare t n d = getParentBranchIrqCountShare s n d := by
  induction n generalizing d with
  | zero => rfl
  | succ n ih =>
    rw [getParentBranchIrqCountShare, getParentBranchIrqCountShare, e]
    cases (s.objs d).parent with
    | none => rfl
    | some p => dsimp only; rw [ih]

theorem getChildrenBranchIrqCount_of_objs (e : t.objs = s.objs) (n : ℕ) :
    getChildrenBranchIrqCount t n = getChildrenBranchIrqCount s n := by
  induction n with
  | zero => rfl
  | succ n ih =>
    funext total d
    rw [getChildrenBranchIrqCount, getChildrenBranchIrqCount, e, ih]

theorem loadSlice_of_noIrqLoads (e : t.noIrqLoads = s.noIrqLoads) : loadSlice t = loadSlice s := by
  have hobjs := objs_of_noIrqLoads e
  have hdepth : depthBound t = depthBound s :=
    show depthBound t.noIrqLoads = depthBound s.noIrqLoads by rw [e]
  funext d
  unfold loadSlice
  rw [getParentBranchIrqCountShare_of_objs hobjs, getChildrenBranchIrqCount_of_objs hobjs, hobjs, hdepth]

/-- The irqs of an object have their shares. -/
def Shared (slice : ObjId → UInt64) (s : State) (d : ObjId) : Prop :=
  ∀ i ∈ (s.objs d).interrupts, (s.irqs i).load = (s.irqs i).sliced (slice d)

section Share

variable {l : List ObjId} {slice : ObjId → UInt64}

theorem computeIrqBranchLoadShare_shared (hslice : loadSlice s d = some (slice d))
    (hnd : (s.objs d).interrupts.Nodup) : ∃ t, computeIrqBranchLoadShare d s = some t ∧
      t.noIrqLoads = s.noIrqLoads ∧ Shared slice t d ∧
      ∀ i ∉ (s.objs d).interrupts, t.irqs i = s.irqs i := by
  refine ⟨_, computeIrqBranchLoadShare_eq hslice hnd, noIrqLoads_modIrqs (by intro _; rfl) _ _,
    fun i hi => ?_, fun i hi => ?_⟩
  · have hi' : i ∈ (s.objs d).interrupts := hi
    rw [modIrqs_irqs, if_pos hi']
    rfl
  · rw [modIrqs_irqs, if_neg hi]

/-- **Walking over objects that share no irq gives each irq its share.** -/
theorem foldlM_computeIrqBranchLoadShare (hnd : ∀ d ∈ l, (s.objs d).interrupts.Nodup)
    (hdisj : ∀ d ∈ l, ∀ e ∈ l, ∀ i ∈ (s.objs d).interrupts, i ∈ (s.objs e).interrupts → d = e)
    (hslice : ∀ d ∈ l, loadSlice s d = some (slice d)) :
    ∃ t, l.foldlM (fun s d => computeIrqBranchLoadShare d s) s = some t ∧
      t.noIrqLoads = s.noIrqLoads ∧ ∀ d ∈ l, Shared slice t d := by
  have hcall : ∀ d ∈ l, ∀ u, u.noIrqLoads = s.noIrqLoads → ∃ u', computeIrqBranchLoadShare d u = some u' ∧
      u'.noIrqLoads = s.noIrqLoads ∧ Shared slice u' d ∧
      ∀ i ∉ (s.objs d).interrupts, u'.irqs i = u.irqs i := by
    intro d hd u e
    have hobjs := objs_of_noIrqLoads e
    obtain ⟨u', hu', e', hshared, hrest⟩ := computeIrqBranchLoadShare_shared (s := u)
      (by rw [loadSlice_of_noIrqLoads e]; exact hslice d hd) (by rw [hobjs]; exact hnd d hd)
    rw [hobjs] at hrest
    exact ⟨u', hu', e'.trans e, hshared, hrest⟩
  obtain ⟨t, ht, e⟩ := Loops.foldlM_isSome (fun u : State => u.noIrqLoads = s.noIrqLoads)
    (fun d hd u hu => by
      obtain ⟨u', hu', e', -⟩ := hcall d hd u hu
      exact ⟨u', hu', e'⟩) (rfl : s.noIrqLoads = s.noIrqLoads)
  refine ⟨t, ht, e, ?_⟩
  refine Loops.foldlM_forall (fun u : State => u.noIrqLoads = s.noIrqLoads) (fun d u => Shared slice u d)
    ?_ ?_ ?_ rfl ht
  · intro d hd u u' hu h
    obtain ⟨v, hv, e', -⟩ := hcall d hd u hu
    rw [h] at hv
    cases hv
    exact e'
  · intro d hd u u' hu h
    obtain ⟨v, hv, -, hshared, -⟩ := hcall d hd u hu
    rw [h] at hv
    cases hv
    exact hshared
  · intro d hd b hb u u' hu hq h
    obtain ⟨v, hv, e', hshared, hrest⟩ := hcall d hd u hu
    rw [h] at hv
    cases hv
    by_cases hbd : b = d
    · rw [hbd]
      exact hshared
    · intro i hi
      rw [objs_of_noIrqLoads e', ← objs_of_noIrqLoads hu] at hi
      have hid : i ∉ (s.objs d).interrupts := fun hm =>
        hbd (hdisj b hb d hd i (by rw [← objs_of_noIrqLoads hu]; exact hi) hm)
      rw [hrest i hid]
      exact hq i hi

end Share

/-- The last four passes are one. -/
theorem aggregateStat_eq (s : State) : aggregateStat s = (sumStat s).bind fun s =>
    (s.cpus ++ (s.cacheDomains ++ (s.packages ++ s.numaNodes))).foldlM
      (fun s d => computeIrqBranchLoadShare d s) s := by
  have hview : ∀ (φ : State → List ObjId), (∀ u, φ u.noLoads = φ u) → ∀ (l : List ObjId) (u : State),
      (l.foldlM (fun s d => computeIrqBranchLoadShare d s) u).bind
        (fun t => (φ t).foldlM (fun s d => computeIrqBranchLoadShare d s) t) =
      (l ++ φ u).foldlM (fun s d => computeIrqBranchLoadShare d s) u := fun φ hφ l u =>
    Loops.foldlM_then (fun d t t' h => by rw [← hφ t', computeIrqBranchLoadShare_noLoads h, hφ]) l u
  unfold aggregateStat sumStat
  simp only [Option.bind_eq_bind, Option.bind_assoc]
  refine congrArg _ (funext fun _ => congrArg _ (funext fun s₂ => ?_))
  simp only [hview State.numaNodes (fun _ => rfl), hview (fun u => u.packages ++ u.numaNodes) fun _ => rfl,
    hview (fun u => u.cacheDomains ++ (u.packages ++ u.numaNodes)) fun _ => rfl]

/-! ### `parse_proc_stat` behind the count of the cpus -/

theorem Live.interrupts_disjoint (h : Live s) {e : ObjId} (hd : d ∈ s.topology) (he : e ∈ s.topology)
    (hi : i ∈ (s.objs d).interrupts) (hi' : i ∈ (s.objs e).interrupts) : d = e := by
  have hhome : s.home i = some d := ((h.mem_slot (some_mem_slots.2 hd)).1 hi).2
  have hhome' : s.home i = some e := ((h.mem_slot (some_mem_slots.2 he)).1 hi').2
  exact Option.some.inj (hhome.symm.trans hhome')

theorem Live.of_noLoads (h : Live s) (e : t.noLoads = s.noLoads) : Live t :=
  h.of_noStats (noStats_of_noLoads e)

theorem noLoads_of_noIrqLoads (e : t.noIrqLoads = s.noIrqLoads) : t.noLoads = s.noLoads :=
  show t.noIrqLoads.noLoads = s.noIrqLoads.noLoads by rw [e]

theorem sumIrqCounts_of_noIrqLoads (e : t.noIrqLoads = s.noIrqLoads) :
    sumIrqCounts t = sumIrqCounts s :=
  show sumIrqCounts t.noIrqLoads = sumIrqCounts s.noIrqLoads by rw [e]

theorem Summed.of_noIrqLoads (h : Summed s) (e : t.noIrqLoads = s.noIrqLoads) : Summed t where
  load o ho hkids := by
    have hobjs := objs_of_noIrqLoads e
    rw [topology_of_noLoads (noLoads_of_noIrqLoads e)] at ho
    unfold State.kids sumLoads at *
    rw [hobjs] at hkids ⊢
    exact h.load o ho hkids
  irqCount o ho := by
    rw [topology_of_noLoads (noLoads_of_noIrqLoads e)] at ho
    rw [objs_of_noIrqLoads e, sumIrqCounts_of_noIrqLoads e]
    exact h.irqCount o ho

/-- The objects have their sums, and the irqs their shares. -/
structure Aggregated (s : State) : Prop where
  summed : Summed s
  shared : ∀ d ∈ s.topology, ∃ slice, loadSlice s d = some slice ∧
    ∀ i ∈ (s.objs d).interrupts, (s.irqs i).load = (s.irqs i).sliced slice

/-- **Behind the count of the cpus, `parse_proc_stat` ends.** -/
theorem Live.aggregateStat (h : Live s) :
    ∃ t, IrqBalance.aggregateStat s = some t ∧ Aggregated t ∧
      ∀ o, s.kids o = [] → (t.objs o).load = (s.objs o).load := by
  obtain ⟨u, hu, hnoLoads, -, hleaf, hsummed⟩ := h.topo.sumStat
  have hlive : Live u := h.of_noLoads hnoLoads
  have hmem : ∀ d, d ∈ u.cpus ++ (u.cacheDomains ++ (u.packages ++ u.numaNodes)) ↔ d ∈ u.topology := by
    intro d
    simp only [State.topology, List.mem_append]
    tauto
  have hslice' : ∀ d ∈ u.topology, loadSlice u d = some ((loadSlice u d).getD 0) := by
    intro d hd
    obtain ⟨slice, e⟩ := hlive.topo.loadSlice_isSome hd
    rw [e]
    rfl
  obtain ⟨t, ht, e, hshared⟩ := foldlM_computeIrqBranchLoadShare
    (l := u.cpus ++ (u.cacheDomains ++ (u.packages ++ u.numaNodes)))
    (fun d hd => hlive.interrupts_nodup ((hmem d).1 hd))
    (fun d hd e he i hi hi' => hlive.interrupts_disjoint ((hmem d).1 hd) ((hmem e).1 he) hi hi')
    (fun d hd => hslice' d ((hmem d).1 hd))
  refine ⟨t, ?_, ⟨hsummed.of_noIrqLoads e, fun d hd => ?_⟩, fun o ho => ?_⟩
  · rw [aggregateStat_eq, hu]
    exact ht
  · rw [topology_of_noLoads (noLoads_of_noIrqLoads e)] at hd
    refine ⟨(loadSlice u d).getD 0, ?_, hshared d ((hmem d).2 hd)⟩
    rw [loadSlice_of_noIrqLoads e]
    exact hslice' d hd
  · rw [objs_of_noIrqLoads e]
    exact hleaf o ho

/-! ### `clear_work_stats` -/

theorem clearObjStats_eq_visit (n : ℕ) (d : ObjId) (s : State) : clearObjStats n d s =
    visit State.kids (fun d => forEachIrq (fun s => (s.objs d).interrupts) clearIrqStats) n d s := by
  induction n generalizing d s with
  | zero => rfl
  | succ n ih =>
    have hfun : (fun s c => clearObjStats n c s) = fun s c => visit State.kids
        (fun d => forEachIrq (fun s => (s.objs d).interrupts) clearIrqStats) n c s := by
      funext s c
      exact ih c s
    rw [clearObjStats, visit, ← hfun]
    rfl

/-- The irqs of all objects have no load. -/
def Cleared (s : State) : Prop :=
  ∀ d ∈ s.topology, ∀ i ∈ (s.objs d).interrupts, (s.irqs i).load = 0

/-- Clearing writes zeros only. -/
theorem forEachIrq_clearIrqStats_zero {list : State → List IrqId}
    (h : forEachIrq list clearIrqStats s = some t) (hi : (s.irqs i).load = 0) : (t.irqs i).load = 0 := by
  refine Loops.walk_keeps (fun u : State => (u.irqs i).load = 0) (fun j u u' hu hj => ?_) hi h
  cases hj
  rw [State.modIrq_irqs]
  split_ifs
  · rfl
  · exact hu

/-- **`clear_work_stats` clears the irqs of all objects.** -/
theorem Live.clearWorkStats (h : Live s) (hc : clearWorkStats s = some t) : Cleared t := by
  have hnoLoads := clearWorkStats_noLoads hc
  unfold IrqBalance.clearWorkStats at hc
  rw [h.topo.numaNodes, Loops.foldlM_singleton, clearObjStats_eq_visit] at hc
  have hall : ∀ o ∈ s.topology, ∀ i ∈ (s.objs o).interrupts, (t.irqs i).load = 0 := by
    refine (h.topo.visit_node (fun u => u.noLoads = s.noLoads)
      (fun o u => ∀ i ∈ (s.objs o).interrupts, (u.irqs i).load = 0) (fun u hu => kids_of_noLoads hu)
      ?_ ?_ rfl hc).2
    · intro d hd u u' hu _ hput
      refine ⟨(forEachIrq_view State.noLoads (fun i v v' hv => ?_) hput).trans hu, fun i hi => ?_⟩
      · cases hv
        exact noLoads_modIrq (by intro _; rfl) v i
      · have hlist := interrupts_of_noLoads hu d
        rw [← hlist] at hi
        have hclear : forEachIrq (fun s => (s.objs d).interrupts) clearIrqStats u =
            some (u.modIrqs (u.objs d).interrupts fun info => { info with load := 0 }) :=
          forEachIrq_modIrq (List.ne_nil_of_mem hi) (by rw [hlist]; exact h.interrupts_nodup hd)
            fun v j => modIrq_interrupts _ v j
        have e := Option.some.inj (hput.symm.trans hclear)
        rw [e, modIrqs_irqs, if_pos hi]
    · exact fun d _ o _ u u' _ _ hq hput i hi => forEachIrq_clearIrqStats_zero hput (hq i hi)
  intro d hd i hi
  rw [topology_of_noLoads hnoLoads] at hd
  rw [interrupts_of_noLoads hnoLoads] at hi
  exact hall d hd i hi

end IrqBalance
