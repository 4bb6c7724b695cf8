import IrqBalance.Database
import IrqBalance.Tree
import Mathlib.Data.List.Find

/-!
# Building at other addresses

What `build_object_tree` makes does not depend on the addresses it gets from `calloc`. `Replays n b c s`
compares the states `c` and `s` of two runs of it: what is at an address `o` in `c` is at `n + o` in `s`, with
the addresses in it changed in the same way, and likewise for the irqs and `b`. Only the unspecified node has
the same address in both. Every function that takes part in the building keeps this.
-/

namespace IrqBalance

/-! ### Changing addresses -/

/-- The record, with other addresses in it. -/
def TopoObj.rename (ρ : ObjId → ObjId) (σ : IrqId → IrqId) (o : TopoObj) : TopoObj :=
  { o with interrupts := o.interrupts.map σ, parent := o.parent.map ρ, children := o.children.map ρ }

/-- The record, with other addresses in it. -/
def IrqInfo.rename (ρ : ObjId → ObjId) (info : IrqInfo) : IrqInfo :=
  { info with numaNode := info.numaNode.map ρ, assignedObj := info.assignedObj.map ρ }

/-- The address of an object in the other run. -/
def shift (n : ℕ) (o : ObjId) : ObjId := if o = unspecifiedNode then unspecifiedNode else n + o

theorem shift_node (n : ℕ) : shift n unspecifiedNode = unspecifiedNode := if_pos rfl

theorem shift_of_lt {n : ℕ} {o : ObjId} (h : unspecifiedNode < o) : shift n o = n + o :=
  if_neg (Nat.ne_of_gt h)

theorem shift_injective (n : ℕ) : Function.Injective (shift n) := by
  have hinj : ∀ o p : ℕ, (if o = 0 then 0 else n + o) = (if p = 0 then 0 else n + p) → o = p := by
    intro o p h
    split_ifs at h <;> omega
  exact fun o p h => hinj o p h

/-- Nothing has been counted at the object, and nothing has been put there. -/
structure TopoObj.IsNew (o : TopoObj) : Prop where
  load : o.load = 0
  lastLoad : o.lastLoad = 0
  irqCount : o.irqCount = 0
  powersaveMode : o.powersaveMode = false
  interrupts : o.interrupts = []

/-- Links do not matter. -/
theorem TopoObj.IsNew.link {o : TopoObj} (h : o.IsNew) (parent : Option ObjId) (children : List ObjId) :
    ({ o with parent := parent, children := children } : TopoObj).IsNew :=
  ⟨h.load, h.lastLoad, h.irqCount, h.powersaveMode, h.interrupts⟩

/-- The state `s` is `c` at other addresses. -/
structure Replays (n b : ℕ) (c s : State) : Prop where
  numaAvail : c.opts.numaAvail = false
  opts : s.opts = c.opts
  node_lt : unspecifiedNode < c.nextObj
  nextObj : s.nextObj = n + c.nextObj
  objs : ∀ o < c.nextObj, s.objs (shift n o) = (c.objs o).rename (shift n) (b + ·)
  objs_new : ∀ o < c.nextObj, (c.objs o).IsNew
  numaNodes : s.numaNodes = c.numaNodes.map (shift n)
  packages : s.packages = c.packages.map (shift n)
  cacheDomains : s.cacheDomains = c.cacheDomains.map (shift n)
  cpus : s.cpus = c.cpus.map (shift n)
  numaNodes_lt : ∀ o ∈ c.numaNodes, o < c.nextObj
  packages_lt : ∀ p ∈ c.packages, p < c.nextObj
  caches_lt : ∀ k ∈ c.cacheDomains, k < c.nextObj
  cpus_lt : ∀ k ∈ c.cpus, k < c.nextObj
  packageCount : s.packageCount = c.packageCount
  cacheDomainCount : s.cacheDomainCount = c.cacheDomainCount
  coreCount : s.coreCount = c.coreCount
  bannedCpus : s.bannedCpus = c.bannedCpus
  unbannedCpus : s.unbannedCpus = c.unbannedCpus
  nextIrq : s.nextIrq = b + c.nextIrq
  irqs : ∀ i < c.nextIrq, s.irqs (b + i) = (c.irqs i).rename (shift n)
  irqs_new : ∀ i < c.nextIrq, (c.irqs i).IsNew ∧ (c.irqs i).load = 0
  interruptsDb : s.interruptsDb = c.interruptsDb.map (b + ·)
  bannedIrqs : s.bannedIrqs = c.bannedIrqs.map (b + ·)
  rebalanceIrqList : s.rebalanceIrqList = c.rebalanceIrqList.map (b + ·)
  interruptsDb_lt : ∀ i ∈ c.interruptsDb, i < c.nextIrq
  bannedIrqs_lt : ∀ i ∈ c.bannedIrqs, i < c.nextIrq

/-- A new address at the end of a list. -/
theorem concat_eq_map {f : ℕ → ℕ} {l l' : List ℕ} {x y : ℕ} (hl : l' = l.map f) (hx : f x = y) :
    l' ++ [y] = (l ++ [x]).map f := by
  rw [List.map_append, hl, List.map_singleton, hx]

theorem lt_of_mem_concat {l : List ℕ} {m : ℕ} (hl : ∀ x ∈ l, x < m) : ∀ x ∈ l ++ [m], x < m + 1 :=
  List.forall_mem_append.2 ⟨fun x hx => Nat.lt_succ_of_lt (hl x hx),
    List.forall_mem_singleton.2 (Nat.lt_succ_self m)⟩

variable {n b : ℕ} {c s : State} {o p kid : ObjId} {new : TopoObj}

/-! ### The tree -/

theorem Replays.shift_nextObj (h : Replays n b c s) : shift n c.nextObj = s.nextObj := by
  rw [shift_of_lt h.node_lt, h.nextObj]

theorem rename_new (hnew : new.IsNew) (hparent : new.parent = none) (hchildren : new.children = [])
    {ρ : ObjId → ObjId} {σ : IrqId → IrqId} : new.rename ρ σ = new := by
  have hinterrupts := hnew.interrupts
  cases new
  dsimp only at hparent hchildren hinterrupts
  subst hparent hchildren hinterrupts
  rfl

/-- `calloc` of an object. -/
theorem Replays.callocObj (h : Replays n b c s) (hnew : new.IsNew) (hparent : new.parent = none)
    (hchildren : new.children = []) : Replays n b (c.callocObj new) (s.callocObj new) where
  __ := h
  node_lt := Nat.lt_succ_of_lt h.node_lt
  nextObj := congrArg (· + 1) h.nextObj
  objs o ho := by
    rcases Nat.lt_succ_iff_lt_or_eq.1 ho with ho | rfl
    · have hne : shift n o ≠ s.nextObj := fun e =>
        Nat.ne_of_lt ho (shift_injective n (e.trans h.shift_nextObj.symm))
      have hs : (s.callocObj new).objs (shift n o) = s.objs (shift n o) := if_neg hne
      rw [hs, callocObj_objs ho, h.objs o ho]
    · rw [h.shift_nextObj, callocObj_objs_self, callocObj_objs_self, rename_new hnew hparent hchildren]
  objs_new o ho := by
    rcases Nat.lt_succ_iff_lt_or_eq.1 ho with ho | rfl
    · rw [callocObj_objs ho]
      exact h.objs_new o ho
    · rw [callocObj_objs_self]
      exact hnew
  numaNodes_lt o ho := Nat.lt_succ_of_lt (h.numaNodes_lt o ho)
  packages_lt o ho := Nat.lt_succ_of_lt (h.packages_lt o ho)
  caches_lt o ho := Nat.lt_succ_of_lt (h.caches_lt o ho)
  cpus_lt o ho := Nat.lt_succ_of_lt (h.cpus_lt o ho)

/-- A write to an object. -/
theorem Replays.modObj (h : Replays n b c s) {f g : TopoObj → TopoObj}
    (hfg : ∀ ob, g (ob.rename (shift n) (b + ·)) = (f ob).rename (shift n) (b + ·))
    (hf : ∀ ob, ob.IsNew → (f ob).IsNew) (o : ObjId) :
    Replays n b (c.modObj o f) (s.modObj (shift n o) g) where
  __ := h
  objs p hp := by
    rw [State.modObj_objs, State.modObj_objs]
    by_cases hpo : p = o
    · rw [if_pos hpo, if_pos (congrArg (shift n) hpo), h.objs p hp, hfg]
    · rw [if_neg hpo, if_neg fun e => hpo (shift_injective n e)]
      exact h.objs p hp
  objs_new p hp := by
    rw [State.modObj_objs]
    split_ifs
    · exact hf _ (h.objs_new p hp)
    · exact h.objs_new p hp

/-- The search for an object by its mask. -/
theorem Replays.find_mask (h : Replays n b c s) (mask : Cpumask) {l : List ObjId} (hl : ∀ o ∈ l, o < c.nextObj) :
    ((l.map (shift n)).find? fun o => mask = (s.objs o).mask) =
      (l.find? fun o => mask = (c.objs o).mask).map (shift n) := by
  rw [List.find?_map]
  refine congrArg (Option.map (shift n)) (List.find?_congr fun o ho => ?_)
  have hmask : (s.objs (shift n o)).mask = (c.objs o).mask := by
    rw [h.objs o (hl o ho)]
    rfl
  simp only [Function.comp, hmask]

/-- A function that looks for an object and returns it with the state. -/
structure Finds (n b : ℕ) (c : State) (q r : ObjId × State) : Prop where
  replays : Replays n b q.2 r.2
  obj : r.1 = shift n q.1
  lt : q.1 < q.2.nextObj
  grows : c.nextObj ≤ q.2.nextObj

theorem Replays.findPackage (h : Replays n b c s) (packageid : ℤ) (mask : Cpumask) :
    Finds n b c (findPackage packageid mask c) (findPackage packageid mask s) := by
  have hfind := h.find_mask mask h.packages_lt
  rw [← h.packages] at hfind
  unfold IrqBalance.findPackage
  rw [hfind]
  cases hc : c.packages.find? fun p => mask = (c.objs p).mask with
  | some p => exact ⟨h, rfl, h.packages_lt p (List.mem_of_find?_eq_some hc), le_rfl⟩
  | none =>
    have hcalloc : Replays n b (c.callocObj { mask := mask, objType := .package, number := packageid })
        (s.callocObj { mask := mask, objType := .package, number := packageid }) :=
      h.callocObj ⟨rfl, rfl, rfl, rfl, rfl⟩ rfl rfl
    rw [Option.map_none]
    exact ⟨{ hcalloc with
      packages := concat_eq_map h.packages h.shift_nextObj
      packages_lt := lt_of_mem_concat h.packages_lt
      packageCount := congrArg (· + 1) h.packageCount }, h.shift_nextObj.symm, Nat.lt_succ_self _,
        Nat.le_succ _⟩

theorem Replays.findCacheDomain (h : Replays n b c s) (mask : Cpumask) :
    Finds n b c (findCacheDomain mask c) (findCacheDomain mask s) := by
  have hfind := h.find_mask mask h.caches_lt
  rw [← h.cacheDomains] at hfind
  unfold IrqBalance.findCacheDomain
  rw [hfind, h.cacheDomainCount]
  cases hc : c.cacheDomains.find? fun k => mask = (c.objs k).mask with
  | some k => exact ⟨h, rfl, h.caches_lt k (List.mem_of_find?_eq_some hc), le_rfl⟩
  | none =>
    have hcalloc : Replays n b (c.callocObj { mask := mask, objType := .cache, number := c.cacheDomainCount })
        (s.callocObj { mask := mask, objType := .cache, number := c.cacheDomainCount }) :=
      h.callocObj ⟨rfl, rfl, rfl, rfl, rfl⟩ rfl rfl
    rw [Option.map_none]
    exact ⟨{ hcalloc with
      cacheDomains := concat_eq_map h.cacheDomains h.shift_nextObj
      caches_lt := lt_of_mem_concat h.caches_lt
      cacheDomainCount := rfl }, h.shift_nextObj.symm, Nat.lt_succ_self _, Nat.le_succ _⟩

theorem linkChild_nextObj (o kid : ObjId) (s : State) : (linkChild o kid s).nextObj = s.nextObj :=
  nextObj_of_unlinked (linkChild_unlinked o kid s)

theorem Replays.linkChild (h : Replays n b c s) (ho : o < c.nextObj) (kid : ObjId) :
    Replays n b (linkChild o kid c) (linkChild (shift n o) (shift n kid) s) := by
  have hmem : shift n kid ∈ (s.objs (shift n o)).children ↔ kid ∈ (c.objs o).children := by
    rw [h.objs o ho]
    exact List.mem_map_of_injective (shift_injective n)
  unfold IrqBalance.linkChild
  rw [if_congr hmem rfl rfl]
  split_ifs
  · exact h
  · refine Replays.modObj (Replays.modObj h ?_ ?_ o) ?_ ?_ kid
    · intro ob
      simp [TopoObj.rename]
    · exact fun ob hob => hob.link _ _
    · intro ob
      simp [TopoObj.rename]
    · exact fun ob hob => hob.link _ _

/-- A found object gets a child. -/
theorem Finds.link {q r : ObjId × State} (h : Finds n b c q r) (kid : ObjId) :
    Finds n b c (q.1, IrqBalance.linkChild q.1 kid q.2) (r.1, IrqBalance.linkChild r.1 (shift n kid) r.2) where
  replays := by
    rw [h.obj]
    exact h.replays.linkChild h.lt kid
  obj := h.obj
  lt := by
    rw [linkChild_nextObj]
    exact h.lt
  grows := by
    rw [linkChild_nextObj]
    exact h.grows

theorem getNumaNode_none (h : s.opts.numaAvail = false) (nodeid : ℤ) :
    getNumaNode s nodeid = some unspecifiedNode := by
  simp [getNumaNode, h]

theorem Replays.addPackageToNode (h : Replays n b c s) (hp : p < c.nextObj) (nodeid : ℤ) :
    Replays n b (addPackageToNode p nodeid c) (addPackageToNode (shift n p) nodeid s) := by
  have hparent : (s.objs (shift n p)).parent = none ↔ (c.objs p).parent = none := by
    rw [h.objs p hp]
    exact Option.map_eq_none_iff
  have hnode := shift_node n
  unfold IrqBalance.addPackageToNode
  rw [getNumaNode_none h.numaAvail, getNumaNode_none (h.opts ▸ h.numaAvail)]
  dsimp only
  rw [if_congr hparent rfl rfl]
  split_ifs
  · have hadd := Replays.modObj (f := fun ob => { ob with children := ob.children ++ [p] })
      (g := fun ob => { ob with children := ob.children ++ [shift n p] }) h (fun ob => by simp [TopoObj.rename])
      (fun ob hob => hob.link _ _) unspecifiedNode
    rw [hnode] at hadd
    exact hadd.modObj (fun ob => by simp [TopoObj.rename, hnode])
      (fun ob hob => hob.link _ _) p
  · exact h

/-- `add_package_to_node` allocates nothing. -/
theorem addPackageToNode_nextObj (p : ObjId) (nodeid : ℤ) (s : State) :
    (addPackageToNode p nodeid s).nextObj = s.nextObj := by
  unfold addPackageToNode
  split
  · rfl
  · split_ifs <;> rfl

theorem Replays.addCpuToCacheDomain (h : Replays n b c s) (cpu : ObjId) (mask : Cpumask) :
    Finds n b c (addCpuToCacheDomain cpu mask c) (addCpuToCacheDomain (shift n cpu) mask s) :=
  (h.findCacheDomain mask).link cpu

theorem Replays.addCacheDomainToPackage (h : Replays n b c s) (cache : ObjId) (packageid : ℤ) (mask : Cpumask) :
    Finds n b c (addCacheDomainToPackage cache packageid mask c)
      (addCacheDomainToPackage (shift n cache) packageid mask s) :=
  (h.findPackage packageid mask).link cache

/-- `do_one_cpu`, where the cpu is added. -/
theorem Replays.addCpu (h : Replays n b c s) (d : CpuDir) : Replays n b (addCpu d c) (addCpu d s) := by
  have hcache : s.cacheKey d = c.cacheKey d := by rw [State.cacheKey, h.opts, h.unbannedCpus, State.cacheKey]
  have hpackage : s.packageKey d = c.packageKey d := by rw [State.packageKey, h.unbannedCpus, State.packageKey]
  have hcalloc : Replays n b (c.callocObj d.cpu) (s.callocObj d.cpu) :=
    h.callocObj ⟨rfl, rfl, rfl, rfl, rfl⟩ rfl rfl
  -- the cache domain
  have hcs := hcalloc.addCpuToCacheDomain c.nextObj (c.cacheKey d)
  rw [h.shift_nextObj] at hcs
  rcases hq₂ : IrqBalance.addCpuToCacheDomain c.nextObj (c.cacheKey d) (c.callocObj d.cpu) with ⟨k, c₂⟩
  rcases hr₂ : IrqBalance.addCpuToCacheDomain s.nextObj (c.cacheKey d) (s.callocObj d.cpu) with ⟨k', s₂⟩
  rw [hq₂, hr₂] at hcs
  obtain ⟨h₂, rfl, -, hgrows₂⟩ := hcs
  -- the package
  have hps := h₂.addCacheDomainToPackage k d.packageId (c.packageKey d)
  rcases hq₃ : IrqBalance.addCacheDomainToPackage k d.packageId (c.packageKey d) c₂ with ⟨p, c₃⟩
  rcases hr₃ : IrqBalance.addCacheDomainToPackage (shift n k) d.packageId (c.packageKey d) s₂ with ⟨p', s₃⟩
  rw [hq₃, hr₃] at hps
  obtain ⟨h₃, rfl, hlt, hgrows₃⟩ := hps
  -- the node
  have h₄ := h₃.addPackageToNode hlt (d.nodeid c.opts.numaAvail)
  rw [addCpu_eq hq₂ hq₃, addCpu_eq (hcache ▸ hr₂) (hpackage ▸ hr₃), h.opts]
  have hcpu : c.nextObj < (IrqBalance.addPackageToNode p (d.nodeid c.opts.numaAvail) c₃).nextObj := by
    rw [addPackageToNode_nextObj]
    exact ((Nat.lt_succ_self c.nextObj).trans_le hgrows₂).trans_le hgrows₃
  exact { h₄ with
    cpus := concat_eq_map h₄.cpus h.shift_nextObj
    cpus_lt := List.forall_mem_append.2 ⟨h₄.cpus_lt, List.forall_mem_singleton.2 hcpu⟩
    coreCount := congrArg (· + 1) h₄.coreCount }

theorem Replays.doOneCpu (h : Replays n b c s) (d : CpuDir) :
    Option.Rel (Replays n b) (doOneCpu d c) (doOneCpu d s) := by
  unfold IrqBalance.doOneCpu
  rw [h.bannedCpus]
  split_ifs
  · exact .some h
  · exact .none
  · exact .some { h with
      bannedCpus := rfl
      coreCount := congrArg (· + 1) h.coreCount }
  · exact .some (h.addCpu d)

/-- **The tree.** -/
theorem Replays.parseCpuTree (h : Replays n b c s) (fs : CpuSysfs) :
    Option.Rel (Replays n b) (parseCpuTree fs c) (parseCpuTree fs s) := by
  have hbanned : Replays n b { c with bannedCpus := setupBannedCpus fs, unbannedCpus := ~~~setupBannedCpus fs }
      { s with bannedCpus := setupBannedCpus fs, unbannedCpus := ~~~setupBannedCpus fs } :=
    { h with
      bannedCpus := rfl
      unbannedCpus := rfl }
  unfold IrqBalance.parseCpuTree
  dsimp only
  cases fs.cpuDir with
  | none => exact .some hbanned
  | some dirs => exact Loops.foldlM_rel (fun d _ _ _ hst => hst.doOneCpu d) hbanned

/-! ### The database -/

variable {info : IrqInfo} {i : IrqId}

/-- `calloc` of an irq. -/
theorem Replays.callocIrq (h : Replays n b c s) (hnew : info.IsNew ∧ info.load = 0)
    (hrename : info.rename (shift n) = info) : Replays n b (c.callocIrq info) (s.callocIrq info) where
  __ := h
  nextIrq := congrArg (· + 1) h.nextIrq
  irqs i hi := by
    have hself : ∀ u : State, (u.callocIrq info).irqs u.nextIrq = info := fun u => if_pos rfl
    rcases Nat.lt_succ_iff_lt_or_eq.1 hi with hi | rfl
    · have hne : b + i ≠ s.nextIrq := fun e => Nat.ne_of_lt hi (Nat.add_left_cancel (e.trans h.nextIrq))
      have hs : (s.callocIrq info).irqs (b + i) = s.irqs (b + i) := if_neg hne
      rw [hs, callocIrq_irqs hi, h.irqs i hi]
    · rw [← h.nextIrq, hself, hself, hrename]
  irqs_new i hi := by
    have hself : (c.callocIrq info).irqs c.nextIrq = info := if_pos rfl
    rcases Nat.lt_succ_iff_lt_or_eq.1 hi with hi | rfl
    · rw [callocIrq_irqs hi]
      exact h.irqs_new i hi
    · rw [hself]
      exact hnew
  interruptsDb_lt i hi := Nat.lt_succ_of_lt (h.interruptsDb_lt i hi)
  bannedIrqs_lt i hi := Nat.lt_succ_of_lt (h.bannedIrqs_lt i hi)

/-- A write to an irq. -/
theorem Replays.modIrq (h : Replays n b c s) {f : IrqInfo → IrqInfo}
    (hrename : ∀ info, f (info.rename (shift n)) = (f info).rename (shift n))
    (hf : ∀ info, info.IsNew ∧ info.load = 0 → (f info).IsNew ∧ (f info).load = 0) (i : IrqId) :
    Replays n b (c.modIrq i f) (s.modIrq (b + i) f) where
  __ := h
  irqs j hj := by
    rw [State.modIrq_irqs, State.modIrq_irqs]
    by_cases hji : j = i
    · rw [if_pos hji, if_pos (congrArg (b + ·) hji), h.irqs j hj, hrename]
    · rw [if_neg hji, if_neg fun e => hji (Nat.add_left_cancel e)]
      exact h.irqs j hj
  irqs_new j hj := by
    rw [State.modIrq_irqs]
    split_ifs
    · exact hf _ (h.irqs_new j hj)
    · exact h.irqs_new j hj

/-- The search for an irq by its number. -/
theorem Replays.find_number (h : Replays n b c s) (irq : ℤ) {l : List IrqId} (hl : ∀ i ∈ l, i < c.nextIrq) :
    (l.map (b + ·)).find? (sameIrq s irq) = (l.find? (sameIrq c irq)).map (b + ·) := by
  rw [List.find?_map]
  refine congrArg (Option.map (b + ·)) (List.find?_congr fun i hi => ?_)
  have hnumber : (s.irqs (b + i)).irq = (c.irqs i).irq := by
    rw [h.irqs i (hl i hi)]
    rfl
  simp only [Function.comp, sameIrq, hnumber]

theorem Replays.any_number (h : Replays n b c s) (irq : ℤ) {l : List IrqId} (hl : ∀ i ∈ l, i < c.nextIrq) :
    (l.map (b + ·)).any (sameIrq s irq) = l.any (sameIrq c irq) := by
  rw [← List.isSome_find?, ← List.isSome_find?, h.find_number irq hl, Option.isSome_map]

theorem Replays.getIrqInfo (h : Replays n b c s) (irq : ℤ) :
    getIrqInfo s irq = (getIrqInfo c irq).map (b + ·) := by
  unfold IrqBalance.getIrqInfo
  rw [h.interruptsDb, h.bannedIrqs, h.find_number irq h.interruptsDb_lt, h.find_number irq h.bannedIrqs_lt]
  cases c.interruptsDb.find? (sameIrq c irq) <;> rfl

theorem Replays.isBannedIrq (h : Replays n b c s) (irq : ℤ) : isBannedIrq s irq = isBannedIrq c irq := by
  unfold IrqBalance.isBannedIrq
  rw [h.bannedIrqs, h.any_number irq h.bannedIrqs_lt]

theorem Replays.getIrqUserPolicy (h : Replays n b c s) (env : IrqEnv) (path : Option CString.Text) (irq : ℤ) :
    getIrqUserPolicy env path irq s = getIrqUserPolicy env path irq c := by
  have hnode : getNumaNode s = getNumaNode c := funext fun nodeid => by
    rw [getNumaNode_none h.numaAvail, getNumaNode_none (h.opts ▸ h.numaAvail)]
  have hkey : parseUserPolicyKey s = parseUserPolicyKey c := by
    unfold parseUserPolicyKey
    rw [hnode]
  unfold IrqBalance.getIrqUserPolicy
  rw [h.opts, hkey]

theorem Replays.addBannedIrq (h : Replays n b c s) (irq : ℤ) :
    Replays n b (addBannedIrq irq c) (addBannedIrq irq s) := by
  unfold IrqBalance.addBannedIrq
  rw [h.isBannedIrq irq]
  split_ifs
  · exact h
  · have hcalloc : Replays n b (c.callocIrq { irq := irq, hintPolicy := .exact })
        (s.callocIrq { irq := irq, hintPolicy := .exact }) := h.callocIrq ⟨⟨rfl, rfl, rfl, rfl⟩, rfl⟩ rfl
    exact { hcalloc with
      bannedIrqs := concat_eq_map h.bannedIrqs h.nextIrq.symm
      bannedIrqs_lt := lt_of_mem_concat h.bannedIrqs_lt }

/-- The record that `add_one_irq_to_db` makes, with the one node there is. -/
def newIrq (env : IrqEnv) (dev : Option PciDev) (irq : ℤ) (pol : UserIrqPolicy) : IrqInfo where
  irq := irq
  irqClass := (classAndLevel dev pol).1
  level := (classAndLevel dev pol).2
  numaNode := some unspecifiedNode
  affinityHint := readAffinityHint env irq
  hintPolicy := pol.hintpolicy

theorem addOneIrqToDb_eq (h : s.opts.numaAvail = false) (env : IrqEnv) (dev : Option PciDev) (irq : ℤ)
    (pol : UserIrqPolicy) : addOneIrqToDb env dev irq pol s =
      if s.interruptsDb.any (sameIrq s irq) then (none, s)
      else if isBannedIrq s irq then (none, s)
      else (some s.nextIrq, { s.callocIrq (newIrq env dev irq pol) with
        interruptsDb := s.interruptsDb ++ [s.nextIrq] }) := by
  unfold addOneIrqToDb
  dsimp only
  rw [getNumaNode_none h]
  rfl

theorem Replays.addOneIrqToDb (h : Replays n b c s) (env : IrqEnv) (dev : Option PciDev) (irq : ℤ)
    (pol : UserIrqPolicy) :
    (addOneIrqToDb env dev irq pol s).1 = (addOneIrqToDb env dev irq pol c).1.map (b + ·) ∧
      Replays n b (addOneIrqToDb env dev irq pol c).2 (addOneIrqToDb env dev irq pol s).2 := by
  have hknown : s.interruptsDb.any (sameIrq s irq) = c.interruptsDb.any (sameIrq c irq) := by
    rw [h.interruptsDb, h.any_number irq h.interruptsDb_lt]
  rw [addOneIrqToDb_eq h.numaAvail, addOneIrqToDb_eq (h.opts ▸ h.numaAvail), hknown, h.isBannedIrq irq]
  split_ifs
  · exact ⟨rfl, h⟩
  · exact ⟨rfl, h⟩
  · have hrename : (newIrq env dev irq pol).rename (shift n) = newIrq env dev irq pol := by
      unfold IrqInfo.rename newIrq
      rw [Option.map_some, shift_node, Option.map_none]
    have hcalloc : Replays n b (c.callocIrq (newIrq env dev irq pol)) (s.callocIrq (newIrq env dev irq pol)) :=
      h.callocIrq ⟨⟨rfl, rfl, rfl, rfl⟩, rfl⟩ hrename
    exact ⟨congrArg some h.nextIrq, { hcalloc with
      interruptsDb := concat_eq_map h.interruptsDb h.nextIrq.symm
      interruptsDb_lt := lt_of_mem_concat h.interruptsDb_lt }⟩

theorem checkForIrqBan_opts (hopts : s.opts = c.opts) (irq : ℤ) {l l' : List IrqInfo}
    (hname : (l'.find? fun res => res.irq = irq).map IrqInfo.name = (l.find? fun res => res.irq = irq).map IrqInfo.name) :
    checkForIrqBan s irq l' = checkForIrqBan c irq l := by
  unfold checkForIrqBan
  rw [hopts]
  split_ifs
  · rfl
  · cases hl : l.find? fun res => res.irq = irq with
    | none =>
      rw [hl, Option.map_none, Option.map_eq_none_iff] at hname
      rw [hname]
    | some res =>
      rw [hl, Option.map_some, Option.map_eq_some_iff] at hname
      obtain ⟨res', hl', e⟩ := hname
      rw [hl']
      dsimp only
      rw [e]

theorem Replays.checkForIrqBan (h : Replays n b c s) (irq : ℤ) :
    checkForIrqBan s irq (s.interruptsDb.map s.irqs) = checkForIrqBan c irq (c.interruptsDb.map c.irqs) := by
  apply checkForIrqBan_opts h.opts irq
  have hlist : s.interruptsDb.map s.irqs = (c.interruptsDb.map c.irqs).map (IrqInfo.rename (shift n)) := by
    rw [h.interruptsDb, List.map_map, List.map_map]
    exact List.map_congr_left fun i hi => h.irqs i (h.interruptsDb_lt i hi)
  rw [hlist, List.find?_map, Option.map_map]
  rfl

theorem Replays.addDevIrq (h : Replays n b c s) (env : IrqEnv) (dev : PciDev) (type : IrqType)
    (tmpIrqs : List IrqInfo) (irq : ℤ) :
    Option.Rel (Replays n b) (addDevIrq env dev type tmpIrqs irq c) (addDevIrq env dev type tmpIrqs irq s) := by
  have hban : IrqBalance.checkForIrqBan s irq tmpIrqs = IrqBalance.checkForIrqBan c irq tmpIrqs :=
    checkForIrqBan_opts h.opts irq rfl
  unfold IrqBalance.addDevIrq
  rw [h.getIrqInfo irq, Option.isSome_map, h.getIrqUserPolicy, hban]
  generalize IrqBalance.getIrqUserPolicy env (some dev.devpath) irq c = pol
  dsimp only
  split_ifs
  · exact .some h
  · exact .some (h.addBannedIrq irq)
  · cases IrqBalance.checkForIrqBan c irq tmpIrqs with
    | none => exact .none
    | some banned =>
      cases banned with
      | true => exact .some (h.addBannedIrq irq)
      | false =>
        obtain ⟨hnew, hadd⟩ := h.addOneIrqToDb env (some dev) irq pol
        simp only [Option.bind_eq_bind, Option.bind_some, Bool.false_eq_true, if_false]
        rw [hnew]
        cases (IrqBalance.addOneIrqToDb env (some dev) irq pol c).1 with
        | none => exact .some hadd
        | some i =>
          exact .some (hadd.modIrq (f := fun info => { info with type := type }) (fun _ => rfl)
            (fun _ hi => ⟨⟨hi.1.1, hi.1.2, hi.1.3, hi.1.4⟩, hi.2⟩) i)

theorem Replays.addNewIrq (h : Replays n b c s) (env : IrqEnv) (irq : ℤ) (hint : IrqInfo) {l l' : List IrqInfo}
    (hl : IrqBalance.checkForIrqBan s irq l' = IrqBalance.checkForIrqBan c irq l) :
    Option.Rel (Replays n b) (addNewIrq env irq hint l c) (addNewIrq env irq hint l' s) := by
  have hnew : ∀ (pol : UserIrqPolicy) (banned : Bool),
      let q := if banned then (IrqBalance.getIrqInfo (IrqBalance.addBannedIrq irq c) irq, IrqBalance.addBannedIrq irq c)
        else IrqBalance.addOneIrqToDb env none irq pol c
      let r := if banned then (IrqBalance.getIrqInfo (IrqBalance.addBannedIrq irq s) irq, IrqBalance.addBannedIrq irq s)
        else IrqBalance.addOneIrqToDb env none irq pol s
      r.1 = q.1.map (b + ·) ∧ Replays n b q.2 r.2 := by
    rintro pol (_ | _)
    · exact h.addOneIrqToDb env none irq pol
    · exact ⟨(h.addBannedIrq irq).getIrqInfo irq, h.addBannedIrq irq⟩
  unfold IrqBalance.addNewIrq
  rw [h.getIrqInfo irq, Option.isSome_map, h.getIrqUserPolicy, h.opts, hl]
  generalize IrqBalance.getIrqUserPolicy env none irq c = pol
  by_cases hknown : (IrqBalance.getIrqInfo c irq).isSome
  · rw [if_pos hknown, if_pos hknown]
    exact .some h
  rw [if_neg hknown, if_neg hknown]
  cases isBannedIrqName c.opts hint.name with
  | none => exact .none
  | some nameBan =>
    cases nameBan with
    | true => exact .some h
    | false =>
      dsimp only [Option.bind_eq_bind, Option.bind_some]
      rw [if_neg Bool.false_ne_true, if_neg Bool.false_ne_true]
      cases (if pol.ban = some true then some true else IrqBalance.checkForIrqBan c irq l) with
      | none => exact .none
      | some banned =>
        obtain ⟨hqr, huv⟩ := hnew pol banned
        dsimp only [Option.bind_some]
        generalize (if banned = true then _ else IrqBalance.addOneIrqToDb env none irq pol c) = q at hqr huv ⊢
        generalize (if banned = true then _ else IrqBalance.addOneIrqToDb env none irq pol s) = r at hqr huv ⊢
        obtain ⟨q, u⟩ := q
        obtain ⟨r, v⟩ := r
        dsimp only at hqr huv ⊢
        subst hqr
        -- the write to the new record
        cases q with
        | none => exact .some huv
        | some i =>
          exact .some (huv.modIrq (f := fun info => { info with
            type := hint.type, irqClass := hint.irqClass, level := mapClassToLevel hint.irqClass }) (fun _ => rfl)
              (fun _ hi => ⟨⟨hi.1.1, hi.1.2, hi.1.3, hi.1.4⟩, hi.2⟩) i)

theorem Replays.addMissingIrq (h : Replays n b c s) (env : IrqEnv) (emptyDb : Bool) (info : IrqInfo) :
    Option.Rel (Replays n b) (addMissingIrq env emptyDb c info) (addMissingIrq env emptyDb s info) := by
  unfold IrqBalance.addMissingIrq
  rw [h.getIrqInfo info.irq, Option.isSome_map]
  split_ifs
  · exact .some h
  · exact h.addNewIrq env info.irq info (checkForIrqBan_opts h.opts info.irq rfl)
  · exact h.addNewIrq env info.irq info (h.checkForIrqBan info.irq)

/-- **The database.** -/
theorem Replays.rebuildIrqDb (h : Replays n b c s) (env : IrqEnv) (platform : CString.Text → Option (List CString.Text))
    (procInterrupts : Option CString.Text) (pciDir : Option (List PciDev)) :
    Option.Rel (Replays n b) (rebuildIrqDb env platform procInterrupts pciDir c)
      (rebuildIrqDb env platform procInterrupts pciDir s) := by
  have hfree : Replays n b (freeIrqDb c) (freeIrqDb s) :=
    { h with
      interruptsDb := rfl
      bannedIrqs := rfl
      rebalanceIrqList := rfl
      interruptsDb_lt := fun _ hi => absurd hi List.not_mem_nil
      bannedIrqs_lt := fun _ hi => absurd hi List.not_mem_nil }
  have hcollect : collectFullIrqList platform procInterrupts (freeIrqDb s) =
      collectFullIrqList platform procInterrupts (freeIrqDb c) := by
    unfold collectFullIrqList
    rw [hfree.opts]
  unfold IrqBalance.rebuildIrqDb
  dsimp only
  rw [hcollect]
  cases collectFullIrqList platform procInterrupts (freeIrqDb c) with
  | none => exact .none
  | some tmpIrqs =>
    cases pciDir with
    | none => exact .some hfree
    | some devs =>
      have hdevs : Option.Rel (Replays n b) (devs.foldlM (buildOneDevEntry env tmpIrqs) (freeIrqDb c))
          (devs.foldlM (buildOneDevEntry env tmpIrqs) (freeIrqDb s)) := by
        refine Loops.foldlM_rel (fun dev _ u v huv => ?_) hfree
        rw [buildOneDevEntry_eq, buildOneDevEntry_eq]
        exact Loops.foldlM_rel (fun e _ u' v' huv' => huv'.addDevIrq env e.dev e.type tmpIrqs e.irq) huv
      simp only [Option.bind_eq_bind, Option.bind_some]
      apply Loops.rel_bind hdevs
      intro u v huv
      have hempty : v.interruptsDb.isEmpty = u.interruptsDb.isEmpty := by
        rw [huv.interruptsDb, List.isEmpty_map]
      rw [hempty]
      exact Loops.foldlM_rel (fun info _ u' v' huv' => huv'.addMissingIrq env _ info) huv

end IrqBalance
