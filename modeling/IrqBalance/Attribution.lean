import IrqBalance.Aggregate
import IrqBalance.Counters
import IrqBalance.Lib.Sums

/-!
# The loads of the irqs

`parse_proc_stat` splits the load of an object among its irqs by how often each came, and counts with them
a part of the irqs above the object and all irqs below it. In a forest every irq is counted at most once on
the way, so that nothing exceeds the sum of all arrivals; the irqs of an object get at most its load.
-/

namespace IrqBalance

open Layers (IsForest)

variable {s s' : State} {d p : ObjId} {i : IrqId}

/-! ### Exact arithmetic -/

/-- How often an irq came between the last two readings of `/proc/interrupts`. -/
def State.arrivals (s : State) (i : IrqId) : ℕ :=
  (s.irqs i).irqCount.toNat - (s.irqs i).lastIrqCount.toNat

/-- The arrivals at an object. -/
def State.arrivalsAt (s : State) (d : ObjId) : ℕ := ((s.objs d).interrupts.map s.arrivals).sum

/-- The arrivals at some objects. -/
def State.arrivalsOn (s : State) (l : List ObjId) : ℕ := (l.map s.arrivalsAt).sum

/-- All arrivals. -/
def State.totalArrivals (s : State) : ℕ := (s.interruptsDb.map s.arrivals).sum

/-- `get_parent_branch_irq_count_share` without wrapping. The divisor is a 64-bit number. -/
def State.parentShare (s : State) : ℕ → ObjId → ℕ
  | 0, _ => 0
  | n + 1, d =>
    match s.parents d with
    | none => s.arrivalsAt d
    | some p => s.parentShare n p / (UInt64.ofNat (s.kids p).length).toNat + s.arrivalsAt d

/-- `get_children_branch_irq_count` without wrapping. -/
def State.branchCount (s : State) : ℕ → ObjId → ℕ
  | 0, _ => 0
  | n + 1, d => ((s.kids d).map (s.branchCount n)).sum + s.arrivalsAt d

/-- `local_irq_counts` of `compute_irq_branch_load_share` without wrapping. -/
def State.localIrqCounts (s : State) (d : ObjId) : ℕ :=
  s.parentShare (depthBound s) d + ((s.kids d).map (s.branchCount (depthBound s))).sum

/-! ### All arrivals -/

/-- No irq is at two objects. -/
theorem Live.arrivalsOn_topology (h : Live s) : s.arrivalsOn s.topology ≤ s.totalArrivals := by
  unfold State.arrivalsOn State.arrivalsAt State.totalArrivals
  rw [← Sums.sum_map_flatMap s.topology (fun d => (s.objs d).interrupts)]
  refine Sums.sum_map_le_of_subset ?_ (fun i hi => ?_) _
  · refine List.nodup_flatMap.2 ⟨fun d hd => h.interrupts_nodup hd, ?_⟩
    refine h.topo.topology_nodup.imp_of_mem fun {d e} hd he hne => ?_
    exact fun i hi hi' => hne (h.interrupts_disjoint hd he hi hi')
  · obtain ⟨d, hd, hi⟩ := List.mem_flatMap.1 hi
    exact ((h.mem_slot (some_mem_slots.2 hd)).1 hi).1.1

theorem State.arrivalsOn_append (s : State) (l l' : List ObjId) :
    s.arrivalsOn (l ++ l') = s.arrivalsOn l + s.arrivalsOn l' := by
  unfold State.arrivalsOn
  rw [List.map_append, List.sum_append]

theorem State.arrivalsAt_le (s : State) {l : List ObjId} (hd : d ∈ l) :
    s.arrivalsAt d ≤ s.arrivalsOn l :=
  Sums.le_sum_map hd s.arrivalsAt

/-- The arrivals in the layers below an object. -/
def State.arrivalsBelow (s : State) (d : ObjId) : ℕ :=
  match (s.objs d).objType with
  | .cpu => 0
  | .cache => s.arrivalsOn s.cpus
  | .package => s.arrivalsOn s.cacheDomains + s.arrivalsOn s.cpus
  | .node => s.arrivalsOn s.packages + (s.arrivalsOn s.cacheDomains + s.arrivalsOn s.cpus)

theorem Live.arrivals_root (h : Live s) :
    s.arrivalsAt unspecifiedNode + s.arrivalsBelow unspecifiedNode ≤ s.totalArrivals := by
  have htotal := h.arrivalsOn_topology
  have hnode : s.arrivalsOn [unspecifiedNode] = s.arrivalsAt unspecifiedNode := by
    simp [State.arrivalsOn]
  rw [State.topology, h.topo.numaNodes, s.arrivalsOn_append, s.arrivalsOn_append, s.arrivalsOn_append,
    hnode] at htotal
  rw [State.arrivalsBelow, h.topo.nodeType]
  dsimp only
  omega

/-- The layer of a child is below its parent. -/
theorem TopoWf.arrivals_kid (h : TopoWf s) (hp : p ∈ s.topology) (hk : d ∈ s.kids p) :
    s.arrivalsAt d + s.arrivalsBelow d ≤ s.arrivalsBelow p := by
  unfold State.arrivalsBelow
  rcases (mem_topology h).1 hp with rfl | hp | hp | hp
  · rw [h.node_kids] at hk
    have hle := s.arrivalsAt_le hk
    rw [h.nodeType, (h.isPackage d hk).objType]
    dsimp only
    omega
  · have hd := h.package_kids p hp d hk
    have hle := s.arrivalsAt_le hd
    rw [(h.isPackage p hp).objType, (h.isCache d hd).objType]
    dsimp only
    omega
  · have hd := h.cache_kids p hp d hk
    have hle := s.arrivalsAt_le hd
    rw [(h.isCache p hp).objType, (h.isCpu d hd).objType]
    exact hle
  · rw [h.cpu_kids p hp] at hk
    cases hk

/-! ### What is below an object -/

/-- The irqs below different objects of `L` are counted up to `B`. -/
def BranchBound (s : State) (L : List ObjId) (B : ℕ) : Prop :=
  ∀ (n : ℕ) (l : List ObjId), l.Nodup → (∀ d ∈ l, d ∈ L) → (l.map (s.branchCount n)).sum ≤ B

/-- One layer more. -/
theorem BranchBound.layer {P K : List ObjId} {B : ℕ} (h : BranchBound s K B)
    (hf : IsForest s.kids s.parents {p | p ∈ P} {k | k ∈ K}) (hsub : ∀ p ∈ P, ∀ k ∈ s.kids p, k ∈ K) :
    BranchBound s P (s.arrivalsOn P + B) := by
  intro n l hl hP
  cases n with
  | zero =>
    have hzero : (l.map (s.branchCount 0)).sum = 0 := List.sum_eq_zero fun x hx => by
      obtain ⟨d, -, rfl⟩ := List.mem_map.1 hx
      rfl
    rw [hzero]
    exact Nat.zero_le _
  | succ n =>
    have hsplit : (l.map (s.branchCount (n + 1))).sum =
        ((l.flatMap s.kids).map (s.branchCount n)).sum + s.arrivalsOn l := by
      rw [Sums.sum_map_flatMap]
      exact List.sum_map_add
    have hkids : ((l.flatMap s.kids).map (s.branchCount n)).sum ≤ B := by
      refine h n _ (hf.flatMap_nodup hsub hl hP) fun k hk => ?_
      obtain ⟨p, hp, hk⟩ := List.mem_flatMap.1 hk
      exact hsub p (hP p hp) k hk
    have hown : s.arrivalsOn l ≤ s.arrivalsOn P := Sums.sum_map_le_of_subset hl hP _
    omega

theorem branchBound_nil (s : State) : BranchBound s [] 0 := by
  intro n l _ hl
  cases l with
  | nil => exact Nat.le_refl 0
  | cons d l => exact absurd (hl d List.mem_cons_self) List.not_mem_nil

theorem branchBound_cpus (h : TopoWf s) : BranchBound s s.cpus (s.arrivalsOn s.cpus) := by
  refine (branchBound_nil s).layer (fun k hk => absurd hk List.not_mem_nil) fun k hk c hc => ?_
  rw [h.cpu_kids k hk] at hc
  exact hc

theorem branchBound_caches (h : TopoWf s) (hf : TopoForest s) :
    BranchBound s s.cacheDomains (s.arrivalsOn s.cacheDomains + s.arrivalsOn s.cpus) :=
  (branchBound_cpus h).layer hf.1 h.cache_kids

theorem branchBound_packages (h : TopoWf s) (hf : TopoForest s) : BranchBound s s.packages
    (s.arrivalsOn s.packages + (s.arrivalsOn s.cacheDomains + s.arrivalsOn s.cpus)) :=
  (branchBound_caches h hf).layer hf.2.1 h.package_kids

/-! ### The counts in 64 bits -/

/-- The counts of the irqs and of the objects are exact. -/
structure CountsExact (s : State) : Prop where
  forward : CountsForward s
  irqCount : ∀ d ∈ s.topology, (s.objs d).irqCount.toNat = s.arrivalsAt d

theorem CountsForward.arrivals (h : CountsForward s) (hi : i ∈ s.interruptsDb) :
    ((s.irqs i).irqCount - (s.irqs i).lastIrqCount).toNat = s.arrivals i :=
  Sums.toNat_sub (h i hi)

theorem Live.mem_interruptsDb (h : Live s) (hd : d ∈ s.topology) (hi : i ∈ (s.objs d).interrupts) :
    i ∈ s.interruptsDb :=
  ((h.mem_slot (some_mem_slots.2 hd)).1 hi).1.1

/-- The sums of `accumulate_interrupts` do not wrap. -/
theorem Summed.countsExact (hsummed : Summed s) (h : Live s) (hforward : CountsForward s)
    (hfits : s.totalArrivals < 2 ^ 64) : CountsExact s := by
  refine ⟨hforward, fun d hd => ?_⟩
  have hmap : ((s.objs d).interrupts.map fun i =>
      ((s.irqs i).irqCount - (s.irqs i).lastIrqCount).toNat).sum = s.arrivalsAt d :=
    congrArg List.sum (List.map_congr_left fun i hi => hforward.arrivals (h.mem_interruptsDb hd hi))
  have hle : s.arrivalsAt d ≤ s.totalArrivals :=
    (s.arrivalsAt_le hd).trans h.arrivalsOn_topology
  rw [hsummed.irqCount d hd, sumIrqCounts, Sums.toNat_runningSum, hmap]
  · exact Nat.zero_add _
  · rw [hmap]
    exact (Nat.zero_add _).trans_lt (hle.trans_lt hfits)

/-- The loop of `get_children_branch_irq_count`, where its calls add `b` and do not wrap. -/
theorem foldlM_childrenCount {b : ObjId → ℕ} {n : ℕ} {l : List ObjId}
    (h : ∀ c ∈ l, ∀ total : UInt64, total.toNat + b c < 2 ^ 64 →
      ∃ r, getChildrenBranchIrqCount s n total c = some r ∧ r.toNat = total.toNat + b c)
    (total : UInt64) (hfits : total.toNat + (l.map b).sum < 2 ^ 64) :
    ∃ r, l.foldlM (getChildrenBranchIrqCount s n) total = some r ∧
      r.toNat = total.toNat + (l.map b).sum := by
  induction l generalizing total with
  | nil => exact ⟨total, rfl, rfl⟩
  | cons c l ih =>
    rw [List.map_cons, List.sum_cons] at hfits ⊢
    obtain ⟨r, hr, hrn⟩ := h c List.mem_cons_self total (by omega)
    obtain ⟨r', hr', hrn'⟩ := ih (fun a ha => h a (List.mem_cons_of_mem c ha)) r (by omega)
    refine ⟨r', ?_, by omega⟩
    rw [List.foldlM_cons, hr]
    exact hr'

/-- `get_children_branch_irq_count` does not wrap, where the exact sum fits. -/
theorem CountsExact.childrenCount (hc : CountsExact s) (h : TopoWf s) (n : ℕ) (hd : d ∈ s.topology)
    (hn : s.rank d < n) {total : UInt64} (hfits : total.toNat + s.branchCount n d < 2 ^ 64) :
    ∃ r, getChildrenBranchIrqCount s n total d = some r ∧
      r.toNat = total.toNat + s.branchCount n d := by
  induction n generalizing d total with
  | zero => exact absurd hn (Nat.not_lt_zero _)
  | succ n ih =>
    rw [State.branchCount] at hfits ⊢
    obtain ⟨r, hr, hrn⟩ := foldlM_childrenCount (l := s.kids d) (n := n)
      (fun c hcd _ => ih (h.mem_topology_of_kid hd hcd)
        (Nat.lt_of_lt_of_le (h.ranked.lt d hd c hcd) (Nat.le_of_lt_succ hn))) total (by omega)
    have hown : (r + (s.objs d).irqCount).toNat = r.toNat + s.arrivalsAt d := by
      rw [← hc.irqCount d hd]
      exact Sums.toNat_add (by rw [hc.irqCount d hd]; omega)
    refine ⟨r + (s.objs d).irqCount, ?_, by omega⟩
    rw [getChildrenBranchIrqCount, show (s.objs d).children = s.kids d from rfl, hr]
    rfl

/-- `get_parent_branch_irq_count_share` at `d`, `k` levels below the root, is exact and up to `B`. -/
def ShareAt (s : State) (k : ℕ) (d : ObjId) (B : ℕ) : Prop :=
  ∀ n, s.parentShare (n + k) d ≤ B ∧ ∃ r, getParentBranchIrqCountShare s (n + k) d = some r ∧
    r.toNat = s.parentShare (n + k) d

theorem CountsExact.share_root (hc : CountsExact s) (hd : d ∈ s.topology)
    (hroot : s.parents d = none) : ShareAt s 1 d (s.arrivalsAt d) := by
  intro n
  have hroot' : (s.objs d).parent = none := hroot
  rw [State.parentShare, getParentBranchIrqCountShare, hroot, hroot']
  exact ⟨Nat.le_refl _, _, rfl, hc.irqCount d hd⟩

theorem CountsExact.share_kid (hc : CountsExact s) (hd : d ∈ s.topology) {k B : ℕ}
    (hp : s.parents d = some p) (hk : d ∈ s.kids p) (h : ShareAt s k p B)
    (hfits : B + s.arrivalsAt d < 2 ^ 64) : ShareAt s (k + 1) d (B + s.arrivalsAt d) := by
  intro n
  have hp' : (s.objs d).parent = some p := hp
  have hkids : (s.objs p).children ≠ [] := List.ne_nil_of_mem hk
  obtain ⟨hB, r, hr, hrn⟩ := h n
  have hdiv : s.parentShare (n + k) p / (UInt64.ofNat (s.kids p).length).toNat ≤ B :=
    (Nat.div_le_self _ _).trans hB
  have hquot : (r / UInt64.ofNat (s.objs p).children.length).toNat =
      s.parentShare (n + k) p / (UInt64.ofNat (s.kids p).length).toNat := by
    rw [UInt64.toNat_div, hrn]
    rfl
  rw [← Nat.add_assoc, State.parentShare, getParentBranchIrqCountShare, hp, hp']
  refine ⟨Nat.add_le_add_right hdiv _, r / UInt64.ofNat (s.objs p).children.length + (s.objs d).irqCount,
    ?_, ?_⟩
  · dsimp only
    rw [hr, Option.bind_eq_bind, Option.bind_some, if_neg hkids]
  · rw [Sums.toNat_add (by rw [hquot, hc.irqCount d hd]; omega), hquot, hc.irqCount d hd]

/-- **An object and what is above it count at most what is not below it.** -/
theorem CountsExact.share_le (hc : CountsExact s) (h : Live s) (hfits : s.totalArrivals < 2 ^ 64)
    (hd : d ∈ s.topology) : ∃ k ≤ 4, ∃ B, ShareAt s k d B ∧ B + s.arrivalsBelow d ≤ s.totalArrivals := by
  refine h.topo.climb (P := fun k d => ∃ B, ShareAt s k d B ∧ B + s.arrivalsBelow d ≤ s.totalArrivals)
    ?_ (fun k p d hp hk e hshare => ?_) hd
  · exact ⟨_, hc.share_root (unspecifiedNode_mem_topology h.topo) h.topo.node_parent, h.arrivals_root⟩
  · obtain ⟨B, hB, hle⟩ := hshare
    have hkid := h.topo.arrivals_kid hp hk
    exact ⟨_, hc.share_kid (h.topo.mem_topology_of_kid hp hk) e hk hB (by omega), by omega⟩

/-- What is below an object is counted once. -/
def BelowOnce (s : State) (d : ObjId) : Prop :=
  ∀ n, ((s.kids d).map (s.branchCount n)).sum ≤ s.arrivalsBelow d

theorem TopoWf.belowOnce_cpu (h : TopoWf s) (hk : d ∈ s.cpus) : BelowOnce s d := by
  intro n
  rw [h.cpu_kids d hk]
  exact Nat.zero_le _

theorem TopoForest.belowOnce (hf : TopoForest s) (h : TopoWf s) (hd : d ∈ s.topology) :
    BelowOnce s d := by
  intro n
  unfold State.arrivalsBelow
  rcases (mem_topology h).1 hd with rfl | hd | hd | hd
  · rw [h.node_kids, h.nodeType]
    exact branchBound_packages h hf n s.packages h.packages_nodup fun _ hp => hp
  · rw [(h.isPackage d hd).objType]
    exact branchBound_caches h hf n _ (hf.2.1.kids_nodup h.package_kids hd) (h.package_kids d hd)
  · rw [(h.isCache d hd).objType]
    exact branchBound_cpus h n _ (hf.1.kids_nodup h.cache_kids hd) (h.cache_kids d hd)
  · exact h.belowOnce_cpu hd n

/-! ### The slices -/

/-- What `compute_irq_branch_load_share` computes for an object. -/
structure Sliced (s : State) (d : ObjId) (slice : UInt64) : Prop where
  loadSlice_eq : loadSlice s d = some slice
  /-- the recursion over `parent` does not wrap -/
  own_eq : (getParentBranchIrqCountShare s (depthBound s) d).map UInt64.toNat =
    some (s.parentShare (depthBound s) d)
  /-- nor does the sum of all counts -/
  local_lt : s.localIrqCounts d < 2 ^ 64
  slice_eq : slice.toNat = Sums.share (s.objs d).load.toNat (s.localIrqCounts d)
  arrivalsAt_le : s.arrivalsAt d ≤ s.localIrqCounts d

/-- **Where nothing is counted twice, the load slice is exact.** -/
theorem CountsExact.sliced (hc : CountsExact s) (h : Live s) (hfits : s.totalArrivals < 2 ^ 64)
    (hd : d ∈ s.topology) (hbelow : BelowOnce s d) : ∃ slice, Sliced s d slice := by
  obtain ⟨k, hk, B, hshare, hle⟩ := hc.share_le h hfits hd
  have hdepth : depthBound s - k + k = depthBound s := Nat.sub_add_cancel (by unfold depthBound; omega)
  obtain ⟨hB, own, howneq, hownN⟩ := hshare (depthBound s - k)
  rw [hdepth] at hB howneq hownN
  have hsum := hbelow (depthBound s)
  have hlocal : s.localIrqCounts d < 2 ^ 64 := by
    unfold State.localIrqCounts
    omega
  obtain ⟨r, hr, hrn⟩ := foldlM_childrenCount (l := s.kids d) (n := depthBound s)
    (fun c hcd _ => hc.childrenCount h.topo _ (h.topo.mem_topology_of_kid hd hcd) (rank_lt_depthBound s c))
    own (by unfold State.localIrqCounts at hlocal; omega)
  rw [hownN] at hrn
  have hrn' : r.toNat = s.localIrqCounts d := hrn
  have hslice : loadSlice s d = some (if r = 0 then 1 else (s.objs d).load / r) := by
    unfold loadSlice
    rw [howneq, Option.bind_eq_bind, Option.bind_some, show (s.objs d).children = s.kids d from rfl, hr]
    rfl
  refine ⟨_, hslice, by rw [howneq, ← hownN]; rfl, hlocal, ?_, ?_⟩
  · have hzero : r = 0 ↔ s.localIrqCounts d = 0 := by
      rw [← hrn', ← UInt64.toNat_inj]
      rfl
    unfold Sums.share
    simp only [hzero]
    split_ifs
    · rfl
    · rw [UInt64.toNat_div, hrn']
  · -- the share from above includes the irqs of the object itself
    have hself : s.arrivalsAt d ≤ s.parentShare (depthBound s) d := by
      unfold depthBound
      rw [State.parentShare]
      split
      · exact Nat.le_refl _
      · exact Nat.le_add_left _ _
    exact hself.trans (Nat.le_add_right _ _)

/-! ### The loads -/

/-- **The irqs of an object get at most its load.** -/
theorem Sliced.sum_le {slice : UInt64} (h : Sliced s d slice) :
    ((s.objs d).interrupts.map fun i => s.arrivals i * slice.toNat).sum ≤ (s.objs d).load.toNat := by
  rw [h.slice_eq]
  exact Sums.sum_share_le h.arrivalsAt_le

/-- The load of an irq is its share, but at least 1. -/
theorem Sliced.load_eq {slice : UInt64} (h : Sliced s d slice)
    (hforward : (s.irqs i).lastIrqCount ≤ (s.irqs i).irqCount) (hi : i ∈ (s.objs d).interrupts) :
    ((s.irqs i).sliced slice).toNat = max 1 (s.arrivals i * slice.toNat) := by
  have hle : s.arrivals i * slice.toNat ≤ (s.objs d).load.toNat :=
    (Sums.le_sum_map hi fun i => s.arrivals i * slice.toNat).trans h.sum_le
  have hdiff : ((s.irqs i).irqCount - (s.irqs i).lastIrqCount).toNat = s.arrivals i :=
    Sums.toNat_sub hforward
  have hload : (s.objs d).load.toNat < 2 ^ 64 := (s.objs d).load.toNat_lt
  have hmul : (((s.irqs i).irqCount - (s.irqs i).lastIrqCount) * slice).toNat =
      s.arrivals i * slice.toNat := by
    rw [Sums.toNat_mul (by rw [hdiff]; omega), hdiff]
  unfold IrqInfo.sliced
  dsimp only
  split_ifs with hzero
  · rw [hzero] at hmul
    rw [← hmul]
    rfl
  · have hpos : s.arrivals i * slice.toNat ≠ 0 := by
      rw [← hmul]
      exact fun e => hzero (UInt64.toNat_inj.1 e)
    rw [hmul]
    omega

/-- The load of an object is split among its irqs. -/
structure Attributed (s : State) (d : ObjId) (slice : UInt64) : Prop extends Sliced s d slice where
  /-- the sum of `accumulate_irq_count` does not wrap -/
  irqCount_eq : (s.objs d).irqCount.toNat = s.arrivalsAt d
  load_eq : ∀ i ∈ (s.objs d).interrupts, (s.irqs i).load.toNat = max 1 (s.arrivals i * slice.toNat)
  sum_le : ((s.objs d).interrupts.map fun i => s.arrivals i * slice.toNat).sum ≤ (s.objs d).load.toNat

section Views

variable {t : State}

theorem arrivals_of_counters (e : t.counters = s.counters) : t.arrivals = s.arrivals := by
  funext i
  have hi := congrFun e i
  unfold State.counters at hi
  rw [Prod.mk.injEq] at hi
  rw [State.arrivals, hi.1, hi.2]
  rfl

theorem interruptsDb_of_noLoads (e : t.noLoads = s.noLoads) : t.interruptsDb = s.interruptsDb :=
  show t.noLoads.interruptsDb = s.noLoads.interruptsDb by rw [e]

theorem totalArrivals_of_counters (hdb : t.interruptsDb = s.interruptsDb)
    (e : t.counters = s.counters) : t.totalArrivals = s.totalArrivals := by
  rw [State.totalArrivals, hdb, arrivals_of_counters e]
  rfl

theorem TopoForest.of_static (h : TopoForest s) (e : t.static = s.static) : TopoForest t := by
  have hstatic : ∀ u : State, TopoForest u.static ↔ TopoForest u := fun _ => Iff.rfl
  rw [← hstatic, e, hstatic]
  exact h

end Views

/-- **Splitting the loads.** -/
theorem Live.attributed (h : Live s) (hforward : CountsForward s) (hfits : s.totalArrivals < 2 ^ 64) :
    ∃ t, IrqBalance.aggregateStat s = some t ∧ Summed t ∧
      ∀ d ∈ t.topology, BelowOnce t d → ∃ slice, Attributed t d slice := by
  obtain ⟨t, ht, hagg, -⟩ := h.aggregateStat
  have hnoLoads := aggregateStat_noLoads ht
  have hcounters := aggregateStat_counters ht
  have hdb := interruptsDb_of_noLoads hnoLoads
  have hlive := h.of_noLoads hnoLoads
  have htotal : t.totalArrivals < 2 ^ 64 := by
    rw [totalArrivals_of_counters hdb hcounters]
    exact hfits
  have hc := hagg.summed.countsExact hlive (hforward.congr hdb hcounters) htotal
  refine ⟨t, ht, hagg.summed, fun d hd hbelow => ?_⟩
  obtain ⟨slice, hs⟩ := hc.sliced hlive htotal hd hbelow
  obtain ⟨slice', hs', hload⟩ := hagg.shared d hd
  have hslice : slice' = slice := Option.some.inj (hs'.symm.trans hs.loadSlice_eq)
  subst hslice
  refine ⟨slice', { hs with
    irqCount_eq := hc.irqCount d hd
    load_eq := fun i hi => ?_
    sum_le := hs.sum_le }⟩
  rw [hload i hi]
  exact hs.load_eq (hc.forward i (hlive.mem_interruptsDb hd hi)) hi

/-- **In every cycle in which all cpus are found, the loads of the irqs of an object are its load split by
their arrivals, rounded down.** -/
theorem load_attributed {pc : Pc} (h : Reach anyStep pc s) (hpc : pc.phase = .live)
    {text : CString.Text} {r : ℕ × State}
    (hr : parseStatLoop (CString.loopBuffers s.opts.getlineKeeps id text) 0 s = some r)
    (hall : r.1 = r.2.cpus.length) (hf : TopoForest s) (hfits : s.totalArrivals < 2 ^ 64) :
    ∃ t, parseProcStat (some text) s = some t ∧ CountsForward t ∧
      ∀ d ∈ t.topology, ∃ slice, Attributed t d slice := by
  have hnoLoads := parseStatLoop_noLoads hr
  have hcounters := counters_of_irqs (parseStatLoop_irqs hr)
  have hdb := interruptsDb_of_noLoads hnoLoads
  have hforward := (h.countsForward hpc).congr hdb hcounters
  have hlive := (h.live hpc).of_noLoads hnoLoads
  obtain ⟨t, ht, -, hattributed⟩ := hlive.attributed hforward
    (by rw [totalArrivals_of_counters hdb hcounters]; exact hfits)
  have hstatic : t.static = s.static :=
    static_of_noStats (noStats_of_noLoads ((aggregateStat_noLoads ht).trans hnoLoads))
  refine ⟨t, ?_, hforward.congr (interruptsDb_of_noLoads (aggregateStat_noLoads ht))
    (aggregateStat_counters ht), fun d hd => hattributed d hd
      ((hf.of_static hstatic).belowOnce (hlive.of_noLoads (aggregateStat_noLoads ht)).topo hd)⟩
  unfold parseProcStat
  dsimp only
  rw [hr, Option.bind_eq_bind, Option.bind_some, if_neg (not_not.2 hall), ht]

/-- 100 more interrupts on the machine with two cpus. -/
def busyEnv : Env where
  procInterrupts := some "   CPU0 CPU1\n 10: 105 6 GIC eth0\n".toList

/-- Two ticks in interrupts on the first cpu. -/
def busyStat : CString.Text :=
  "cpu  1 2 3 4 5 6 7 8\ncpu0 1 2 3 4 5 7 8 8\n".toList ++ "cpu1 1 2 3 4 5 6 7 8\n".toList

/-- The irq has been placed on the first cpu, and gets all of its load. -/
theorem load_attributed_twoCpus : ∃ s t slice, parseProcStat (some busyStat) s = some t ∧
    (t.objs 1).interrupts = [0] ∧ (t.irqs 0).load = 20000000 ∧ Attributed t 1 slice := by
  have hrun : (execs (List.replicate 15 twoCpusEnv ++ [busyEnv]) (.start, State.initial {} fun _ => 0)).map
      (fun r => (r.1, [decide (TopoForest r.2), decide (r.2.totalArrivals < 2 ^ 64),
        decide ((parseStatLoop (CString.loopBuffers r.2.opts.getlineKeeps id busyStat) 0 r.2).map
          (fun q => decide (q.1 = q.2.cpus.length)) = some true),
        decide ((parseProcStat (some busyStat) r.2).map (fun t =>
          ((t.objs 1).interrupts, decide (1 ∈ t.topology), (t.irqs 0).load)) =
            some ([0], true, 20000000))])) =
      some (.loopStat, [true, true, true, true]) := by
    decide +kernel
  obtain ⟨⟨pc, s⟩, hr, e⟩ := Option.map_eq_some_iff.1 hrun
  simp only [Prod.mk.injEq, List.cons.injEq, decide_eq_true_eq, Option.map_eq_some_iff] at e
  obtain ⟨rfl, hf, hfits, ⟨q, hq, hall⟩, ⟨t, ht, hirqs, hmem, hload⟩, -⟩ := e
  have hreach := (Reach.init {} (fun _ => 0) rfl).execs_any hr
  obtain ⟨t', ht', -, hattributed⟩ := load_attributed hreach rfl hq hall hf hfits
  have htt : t' = t := Option.some.inj (ht'.symm.trans ht)
  subst htt
  obtain ⟨slice, hslice⟩ := hattributed 1 hmem
  exact ⟨s, t', slice, ht', hirqs, hload, hslice⟩

end IrqBalance
