import IrqBalance.Replay
import IrqBalance.SysfsMasks

/-!
# A rescan is a fresh start

`free_object_tree`, `build_object_tree` and the `force_rebalance_irq` pass in a row use nothing of the state they
start in but the command line. From any two states of any two runs they lead to the same tree, the same
database and the same masks, up to the addresses that `calloc` returns (`Renamed`).
-/

namespace IrqBalance

variable {s s' t : State} {c u v : State} {n b n₁ b₁ n₂ b₂ : ℕ}

/-- `free_object_tree`, `build_object_tree` and `for_each_irq(NULL, force_rebalance_irq, NULL)`. -/
def rebuild (env : Env) (s : State) : Option State :=
  (buildObjectTree env (freeObjectTree s)).bind forceRebalance

/-! ### The command line -/

/-- No statement changes the options. -/
theorem Stmt.opts_eq {env : Env} {pc pc' : Pc} (h : Stmt env pc s pc' s') (hs : pc.phase.Holds s) :
    s'.opts = s.opts := by
  have hstatic : ∀ {u v : State}, v.static = u.static → v.opts = u.opts := fun {u v} e =>
    show v.static.opts = u.static.opts by rw [e]
  cases h with
  | build hpc _ h =>
    rw [hpc] at hs
    obtain ⟨u, hu, h⟩ := Option.bind_eq_some_iff.1 h
    obtain ⟨hopts, -⟩ := hs.treeless.parseCpuTree hu
    obtain ⟨tmpIrqs, -, -, hsans, -⟩ := rebuildIrqDb_place h
    exact (show s'.sansIrqs.opts = u.opts by rw [hsans]; rfl).trans hopts
  | force hpc _ h =>
    rw [hpc] at hs
    rw [Built.force hs h]
    rfl
  | quiet _ _ h => exact hstatic (static_of_quiet h)
  | free => rfl
  | migrate h => exact hstatic (updateMigrationStatus_rearrange hs h).static_eq
  | place h => exact hstatic (calculatePlacement_rearrange hs h).static_eq
  | activate h => exact hstatic (static_of_unactivated (activateMappings_unactivated h))

theorem execs_opts {envs : List Env} {pc : Pc} (h : Reach anyStep pc s) {r : Pc × State}
    (hr : execs envs (pc, s) = some r) : r.2.opts = s.opts :=
  (Loops.foldlM_inv (fun r : Pc × State => Reach anyStep r.1 r.2 ∧ r.2.opts = s.opts)
    (fun _ _ _ _ ⟨hu, e⟩ hexec => ⟨hu.exec_any hexec, ((exec_stmt hexec).opts_eq hu.holds).trans e⟩)
    ⟨h, rfl⟩ hr).2

/-! ### The same environment -/

/-- The environment, whatever the variable `package_mask` of `do_one_cpu` holds at first. -/
def Env.sansStack (env : Env) : Env :=
  { env with cpuSysfs := { env.cpuSysfs with
      cpuDir := env.cpuSysfs.cpuDir.map (List.map CpuDir.sansStack) } }

/-- Every cpu directory has a `topology/core_siblings` that can be opened. -/
def Env.SiblingsReadable (env : Env) : Prop :=
  ∀ dirs, env.cpuSysfs.cpuDir = some dirs → ∀ d ∈ dirs, d.coreSiblings.isSome

theorem rebuild_sansStack {env : Env} (h : env.SiblingsReadable) (s : State) :
    rebuild env.sansStack s = rebuild env s := by
  have hknown : ∀ d ∈ env.cpuSysfs.added, d.SiblingsKnown (~~~setupBannedCpus env.cpuSysfs) := by
    intro d hd
    have hdir := (List.mem_filter.1 (List.mem_filter.1 hd).1).1
    cases hdirs : env.cpuSysfs.cpuDir with
    | none => rw [hdirs] at hdir; cases hdir
    | some dirs =>
      rw [hdirs] at hdir
      exact Or.inl (Option.isSome_iff_ne_none.1 (h dirs hdirs d hdir))
  have htree : ∀ u, parseCpuTree env.sansStack.cpuSysfs u = parseCpuTree env.cpuSysfs u :=
    parseCpuTree_sansStack hknown
  unfold rebuild buildObjectTree
  dsimp only
  rw [htree]
  rfl

/-! ### Other addresses -/

/-- The state `t` is `s` with other addresses: `ρ` changes the addresses of objects, and `σ` those of irqs. -/
structure Renamed (ρ : ObjId → ObjId) (σ : IrqId → IrqId) (s t : State) : Prop where
  node : ρ unspecifiedNode = unspecifiedNode
  obj_inj : Set.InjOn ρ {o | o ∈ s.topology}
  irq_inj : Set.InjOn σ {i | i ∈ s.known}
  objs : ∀ o ∈ s.topology, t.objs (ρ o) = (s.objs o).rename ρ σ
  irqs : ∀ i ∈ s.known, t.irqs (σ i) = (s.irqs i).rename ρ
  numaNodes : t.numaNodes = s.numaNodes.map ρ
  packages : t.packages = s.packages.map ρ
  cacheDomains : t.cacheDomains = s.cacheDomains.map ρ
  cpus : t.cpus = s.cpus.map ρ
  packageCount : t.packageCount = s.packageCount
  cacheDomainCount : t.cacheDomainCount = s.cacheDomainCount
  coreCount : t.coreCount = s.coreCount
  interruptsDb : t.interruptsDb = s.interruptsDb.map σ
  bannedIrqs : t.bannedIrqs = s.bannedIrqs.map σ
  rebalanceIrqList : t.rebalanceIrqList = s.rebalanceIrqList.map σ
  bannedCpus : t.bannedCpus = s.bannedCpus
  unbannedCpus : t.unbannedCpus = s.unbannedCpus

/-- Nothing has been counted, placed or put to sleep. -/
structure Unused (s : State) : Prop where
  objs : ∀ o ∈ s.topology, (s.objs o).IsNew
  irqs : ∀ i ∈ s.known, (s.irqs i).IsNew ∧ (s.irqs i).load = 0

theorem Replays.mem_topology (h : Replays n b c s) {o : ObjId} (ho : o ∈ s.topology) :
    ∃ k ∈ c.topology, k < c.nextObj ∧ shift n k = o := by
  have htopology : s.topology = c.topology.map (shift n) := by
    unfold State.topology
    rw [h.numaNodes, h.packages, h.cacheDomains, h.cpus, List.map_append, List.map_append, List.map_append]
  rw [htopology] at ho
  obtain ⟨k, hk, rfl⟩ := List.mem_map.1 ho
  refine ⟨k, hk, ?_, rfl⟩
  simp only [State.topology, List.mem_append] at hk
  rcases hk with ((hk | hk) | hk) | hk
  · exact h.numaNodes_lt k hk
  · exact h.packages_lt k hk
  · exact h.caches_lt k hk
  · exact h.cpus_lt k hk

theorem Replays.mem_known (h : Replays n b c s) {i : IrqId} (hi : i ∈ s.known) :
    ∃ j ∈ c.known, j < c.nextIrq ∧ b + j = i := by
  have hknown : s.known = c.known.map (b + ·) := by
    unfold State.known
    rw [h.interruptsDb, h.bannedIrqs, List.map_append]
  rw [hknown] at hi
  obtain ⟨j, hj, rfl⟩ := List.mem_map.1 hi
  refine ⟨j, hj, ?_, rfl⟩
  rcases List.mem_append.1 hj with hj | hj
  · exact h.interruptsDb_lt j hj
  · exact h.bannedIrqs_lt j hj

theorem Replays.unused (h : Replays n b c s) : Unused s := by
  constructor
  · intro o ho
    obtain ⟨k, -, hk, rfl⟩ := h.mem_topology ho
    obtain ⟨hload, hlast, hcount, hmode, hinterrupts⟩ := h.objs_new k hk
    rw [h.objs k hk]
    exact ⟨hload, hlast, hcount, hmode, List.map_eq_nil_iff.2 hinterrupts⟩
  · intro i hi
    obtain ⟨j, -, hj, rfl⟩ := h.mem_known hi
    obtain ⟨⟨hobj, hmoved, hcount, hlast⟩, hload⟩ := h.irqs_new j hj
    rw [h.irqs j hj]
    exact ⟨⟨Option.map_eq_none_iff.2 hobj, hmoved, hcount, hlast⟩, hload⟩

/-! ### Two runs -/

/-- The addresses of the first of two runs, changed to those of the second. -/
def readdress (n₁ n₂ : ℕ) (o : ObjId) : ObjId :=
  if o = unspecifiedNode then unspecifiedNode else n₂ + (o - n₁)

theorem readdress_shift (n₁ n₂ : ℕ) (o : ObjId) : readdress n₁ n₂ (shift n₁ o) = shift n₂ o := by
  by_cases ho : o = unspecifiedNode
  · rw [ho, shift_node, shift_node, readdress, if_pos rfl]
  · have hpos : unspecifiedNode < o := Nat.pos_of_ne_zero ho
    have hne : n₁ + o ≠ unspecifiedNode := Nat.ne_of_gt (Nat.add_pos_right n₁ hpos)
    rw [shift_of_lt hpos, shift_of_lt hpos, readdress, if_neg hne, Nat.add_sub_cancel_left]

/-- Two states that are the same one at other addresses. -/
theorem Replays.renamed (h₁ : Replays n₁ b₁ c u) (h₂ : Replays n₂ b₂ c v) :
    Renamed (readdress n₁ n₂) (fun i => b₂ + (i - b₁)) u v where
  node := if_pos rfl
  obj_inj := by
    intro o ho p hp e
    obtain ⟨k, -, -, rfl⟩ := h₁.mem_topology ho
    obtain ⟨l, -, -, rfl⟩ := h₁.mem_topology hp
    rw [readdress_shift, readdress_shift] at e
    rw [shift_injective n₂ e]
  irq_inj := by
    intro i hi j hj e
    obtain ⟨k, -, -, rfl⟩ := h₁.mem_known hi
    obtain ⟨l, -, -, rfl⟩ := h₁.mem_known hj
    simpa using e
  objs := by
    intro o ho
    obtain ⟨k, -, hk, rfl⟩ := h₁.mem_topology ho
    rw [readdress_shift, h₂.objs k hk, h₁.objs k hk]
    simp [TopoObj.rename, Function.comp_def, readdress_shift]
  irqs := by
    intro i hi
    obtain ⟨j, -, hj, rfl⟩ := h₁.mem_known hi
    rw [Nat.add_sub_cancel_left, h₂.irqs j hj, h₁.irqs j hj]
    simp [IrqInfo.rename, Function.comp_def, readdress_shift]
  numaNodes := by simp [h₁.numaNodes, h₂.numaNodes, Function.comp_def, readdress_shift]
  packages := by simp [h₁.packages, h₂.packages, Function.comp_def, readdress_shift]
  cacheDomains := by simp [h₁.cacheDomains, h₂.cacheDomains, Function.comp_def, readdress_shift]
  cpus := by simp [h₁.cpus, h₂.cpus, Function.comp_def, readdress_shift]
  packageCount := h₂.packageCount.trans h₁.packageCount.symm
  cacheDomainCount := h₂.cacheDomainCount.trans h₁.cacheDomainCount.symm
  coreCount := h₂.coreCount.trans h₁.coreCount.symm
  interruptsDb := by simp [h₁.interruptsDb, h₂.interruptsDb, Function.comp_def]
  bannedIrqs := by simp [h₁.bannedIrqs, h₂.bannedIrqs, Function.comp_def]
  rebalanceIrqList := by simp [h₁.rebalanceIrqList, h₂.rebalanceIrqList, Function.comp_def]
  bannedCpus := h₂.bannedCpus.trans h₁.bannedCpus.symm
  unbannedCpus := h₂.unbannedCpus.trans h₁.unbannedCpus.symm

/-- `rebalance_irq_list` gets the irqs that take part in balancing. -/
theorem Replays.file (h : Replays n b c s) : Replays n b (c.file c.interruptsDb) (s.file s.interruptsDb) where
  __ := h
  rebalanceIrqList := by
    have hbalanced : s.balanced s.interruptsDb = (c.balanced c.interruptsDb).map (b + ·) := by
      unfold State.balanced
      rw [h.interruptsDb, List.filter_map]
      refine congrArg (List.map (b + ·)) (List.filter_congr fun i hi => ?_)
      have hlevel : (s.irqs (b + i)).level = (c.irqs i).level := by
        rw [h.irqs i (h.interruptsDb_lt i hi)]
        rfl
      simp only [Function.comp, hlevel]
    unfold State.file
    dsimp only
    rw [hbalanced, h.rebalanceIrqList, List.map_append]

theorem buildNumaNodeList_one (h : s.opts.numaAvail = false) (dir : Option (List NodeDir)) :
    buildNumaNodeList dir s = { s.modObj unspecifiedNode fun _ => unspecifiedNodeTemplate with
      numaNodes := s.numaNodes ++ [unspecifiedNode] } := by
  simp [buildNumaNodeList, State.modObj, h]

/-- After `free_object_tree` and `build_numa_node_list` there is the node, and nothing else but the banned cpus,
which `parse_cpu_tree` sets anew. -/
theorem replays_start (hnuma : s.opts.numaAvail = false) (hlt : unspecifiedNode < s.nextObj)
    (dir : Option (List NodeDir)) :
    Replays (s.nextObj - 1) s.nextIrq (buildNumaNodeList dir (State.initial s.opts fun _ => 0))
      { buildNumaNodeList dir (freeObjectTree s) with bannedCpus := 0, unbannedCpus := 0 } := by
  have hnew : unspecifiedNodeTemplate.IsNew := ⟨rfl, rfl, rfl, rfl, rfl⟩
  have hnode : ∀ u : State, (u.modObj unspecifiedNode fun _ => unspecifiedNodeTemplate).objs unspecifiedNode =
      unspecifiedNodeTemplate := fun u => State.modObj_objs_self ..
  have hzero : ∀ o < 1, o = unspecifiedNode := fun o ho => Nat.lt_one_iff.1 ho
  have hinit : (State.initial s.opts fun _ => 0).opts.numaAvail = false := hnuma
  have hfree : (freeObjectTree s).opts.numaAvail = false := hnuma
  rw [buildNumaNodeList_one hinit, buildNumaNodeList_one hfree]
  exact {
    numaAvail := hnuma
    opts := rfl
    node_lt := Nat.zero_lt_one
    nextObj := (Nat.sub_add_cancel hlt).symm
    objs := by
      intro o ho
      obtain rfl := hzero o ho
      rw [shift_node]
      dsimp only
      rw [hnode, hnode, rename_new hnew rfl rfl]
    objs_new := by
      intro o ho
      obtain rfl := hzero o ho
      dsimp only
      rw [hnode]
      exact hnew
    numaNodes := (congrArg (fun o => [o]) (shift_node _)).symm
    packages := rfl
    cacheDomains := rfl
    cpus := rfl
    numaNodes_lt := by
      intro o ho
      rw [List.mem_singleton.1 ho]
      exact Nat.zero_lt_one
    packages_lt := fun _ ho => absurd ho List.not_mem_nil
    caches_lt := fun _ ho => absurd ho List.not_mem_nil
    cpus_lt := fun _ ho => absurd ho List.not_mem_nil
    packageCount := rfl
    cacheDomainCount := rfl
    coreCount := rfl
    bannedCpus := rfl
    unbannedCpus := rfl
    nextIrq := rfl
    irqs := fun _ hi => absurd hi (Nat.not_lt_zero _)
    irqs_new := fun _ hi => absurd hi (Nat.not_lt_zero _)
    interruptsDb := rfl
    bannedIrqs := rfl
    rebalanceIrqList := rfl
    interruptsDb_lt := fun _ hi => absurd hi List.not_mem_nil
    bannedIrqs_lt := fun _ hi => absurd hi List.not_mem_nil }

theorem replays_build (hnuma : s.opts.numaAvail = false) (hlt : unspecifiedNode < s.nextObj) (env : Env) :
    Option.Rel (Replays (s.nextObj - 1) s.nextIrq) (buildObjectTree env (State.initial s.opts fun _ => 0))
      (buildObjectTree env (freeObjectTree s)) :=
  Loops.rel_bind ((replays_start hnuma hlt env.nodeDir).parseCpuTree env.cpuSysfs) fun _ _ huv =>
    huv.rebuildIrqDb env.irqEnv env.platform env.procInterrupts env.pciDir

theorem bare_freeObjectTree (hnuma : s.opts.numaAvail = false) (hlt : unspecifiedNode < s.nextObj) :
    Bare (freeObjectTree s) where
  treeless := ⟨hnuma, hlt, rfl, rfl, rfl, rfl⟩
  interruptsDb := rfl
  bannedIrqs := rfl
  rebalanceIrqList := rfl

/-- **What is built is what a fresh start builds**, at other addresses. -/
theorem replays_rebuild (hnuma : s.opts.numaAvail = false) (hlt : unspecifiedNode < s.nextObj) (env : Env) :
    Option.Rel (Replays (s.nextObj - 1) s.nextIrq)
      ((buildObjectTree env (State.initial s.opts fun _ => 0)).bind forceRebalance) (rebuild env s) := by
  have hbuild := Loops.rel_and (replays_build hnuma hlt env) (fun _ hu => (bare_initial hnuma).build hu)
    fun _ hv => (bare_freeObjectTree hnuma hlt).build hv
  refine Loops.rel_bind hbuild fun u v ⟨huv, hu, hv⟩ => ?_
  rw [hu.forceRebalance_eq, hv.forceRebalance_eq]
  exact .some huv.file

/-- In every run there is one node, and its address is not given out again. -/
theorem Reach.base {A : Env → Pc → State → Prop} {pc : Pc} (h : Reach A pc s) :
    s.opts.numaAvail = false ∧ unspecifiedNode < s.nextObj := by
  have htree : TopoWf s → s.opts.numaAvail = false ∧ unspecifiedNode < s.nextObj := fun ht =>
    ⟨ht.numaAvail, ht.node_lt⟩
  exact h.elim (fun hs => ⟨hs.treeless.numaAvail, hs.treeless.node_lt⟩) (fun hs => htree hs.topo)
    fun hs => htree hs.topo

/-- Before `build_object_tree` the state is as `free_object_tree` leaves it. -/
theorem Reach.freed {A : Env → Pc → State → Prop} {pc : Pc} (h : Reach A pc s) (hpc : pc.phase = .bare) :
    freeObjectTree s = s := by
  induction h with
  | init => rfl
  | step _ _ hexec =>
    cases exec_stmt hexec with
    | build _ hpc' => rcases hpc' with ⟨hpc', -⟩ | hpc' <;> rw [hpc'] at hpc <;> cases hpc
    | force _ hpc' => rw [hpc'] at hpc; cases hpc
    | quiet _ hpc' => rcases hpc' with hpc' | hpc' <;> rw [hpc'] at hpc <;> cases hpc
    | free => rfl
    | migrate | place | activate => cases hpc
  | @hup pc s _ _ ih =>
    have hcomm : freeObjectTree (forceRescan s) = forceRescan (freeObjectTree s) := by
      unfold forceRescan
      by_cases hcycle : s.cycleCount = 0
      · have hcycle' : (freeObjectTree s).cycleCount = 0 := hcycle
        rw [if_pos hcycle, if_pos hcycle']
      · have hcycle' : ¬(freeObjectTree s).cycleCount = 0 := hcycle
        rw [if_neg hcycle, if_neg hcycle']
        rfl
    rw [hcomm, ih hpc]

/-- **In what is built nothing has been counted or placed.** -/
theorem Reach.build_unused {A : Env → Pc → State → Prop} {pc : Pc} {env : Env} (h : Reach A pc s)
    (hpc : pc.phase = .bare) (hb : buildObjectTree env s = some s') : Unused s' := by
  obtain ⟨hnuma, hlt⟩ := h.base
  have hrel := replays_build hnuma hlt env
  rw [h.freed hpc, hb] at hrel
  generalize buildObjectTree env (State.initial s.opts fun _ => 0) = x at hrel
  cases hrel with
  | some hreplays => exact hreplays.unused

/-- **A rescan is a fresh start.** From any two states that occur in runs with one command line, in one
environment, it leads to the same state up to addresses, in which nothing has been counted or placed; or it fails
from both. -/
theorem rescan_fresh (env₁ env₂ : Env) (pc₁ pc₂ : Pc) (s₁ s₂ : State) (h₁ : Reach anyStep pc₁ s₁)
    (h₂ : Reach anyStep pc₂ s₂) (hopts : s₂.opts = s₁.opts) (henv : env₂.sansStack = env₁.sansStack)
    (hread₁ : env₁.SiblingsReadable) (hread₂ : env₂.SiblingsReadable) :
    Option.Rel (fun t₁ t₂ => (∃ ρ σ, Renamed ρ σ t₁ t₂) ∧ Unused t₁ ∧ Unused t₂)
      (rebuild env₁ s₁) (rebuild env₂ s₂) := by
  obtain ⟨hnuma₁, hlt₁⟩ := h₁.base
  obtain ⟨hnuma₂, hlt₂⟩ := h₂.base
  have hrel₁ := replays_rebuild hnuma₁ hlt₁ env₁.sansStack
  have hrel₂ := replays_rebuild hnuma₂ hlt₂ env₂.sansStack
  rw [rebuild_sansStack hread₁] at hrel₁
  rw [rebuild_sansStack hread₂, hopts, henv] at hrel₂
  generalize (buildObjectTree env₁.sansStack (State.initial s₁.opts fun _ => 0)).bind forceRebalance = x
    at hrel₁ hrel₂
  generalize rebuild env₁ s₁ = y at hrel₁
  generalize rebuild env₂ s₂ = z at hrel₂
  cases hrel₁ with
  | none => cases hrel₂; exact .none
  | some h₁ => cases hrel₂ with
    | some h₂ => exact .some ⟨⟨_, _, h₁.renamed h₂⟩, h₁.unused, h₂.unused⟩

/-- Two cpus in one package, and something on the stack. -/
def siblingsEnv (stack : Cpumask) : Env :=
  { twoCpusEnv with cpuSysfs := { cpuDir := some [
    { dName := "cpu0".toList, coreSiblings := some ['3'], stack := stack },
    { dName := "cpu1".toList, coreSiblings := some ['3'], stack := stack }] } }

/-- After the first cycle the objects have been used, and a rescan builds what was built at the start, at other
addresses. -/
theorem rescan_fresh_twoCpus : ∃ s t₁ t₂ ρ σ, 0 < (s.objs 1).interrupts.length ∧
    rebuild (siblingsEnv 0) (State.initial {} fun _ => 0) = some t₁ ∧ rebuild (siblingsEnv 1) s = some t₂ ∧
    t₁.cpus = [1, 4] ∧ t₂.cpus = [6, 9] ∧ Renamed ρ σ t₁ t₂ ∧ Unused t₂ := by
  have hrun : (execs (List.replicate 15 (siblingsEnv 1)) (.start, State.initial {} fun _ => 0)).map (fun r =>
      ((r.2.objs 1).interrupts.length, (rebuild (siblingsEnv 1) r.2).map State.cpus)) =
      some (1, some [6, 9]) := by
    decide +kernel
  have hfirst : (rebuild (siblingsEnv 0) (State.initial {} fun _ => 0)).map State.cpus = some [1, 4] := by
    decide +kernel
  have hread : ∀ stack, (siblingsEnv stack).SiblingsReadable := by
    rintro stack _ ⟨⟩ d hd
    simp only [List.mem_cons, List.not_mem_nil, or_false] at hd
    rcases hd with rfl | rfl <;> rfl
  have hsame : ∀ stack stack', (siblingsEnv stack').sansStack = (siblingsEnv stack).sansStack := fun _ _ => rfl
  obtain ⟨⟨pc, s⟩, hr, e⟩ := Option.map_eq_some_iff.1 hrun
  obtain ⟨hused, hcpus⟩ := Prod.mk.inj e
  have hinit := Reach.init (A := anyStep) {} (fun _ => 0) rfl
  have hrel := rescan_fresh (siblingsEnv 0) (siblingsEnv 1) _ _ _ _ hinit (hinit.execs_any hr)
    (execs_opts hinit hr) (hsame 0 1) (hread 0) (hread 1)
  obtain ⟨t₁, ht₁, hcpus₁⟩ := Option.map_eq_some_iff.1 hfirst
  obtain ⟨t₂, ht₂, hcpus₂⟩ := Option.map_eq_some_iff.1 hcpus
  rw [ht₁, ht₂] at hrel
  obtain ⟨⟨ρ, σ, hrenamed⟩, -, hunused⟩ := Option.rel_some_some.1 hrel
  dsimp only at hused
  exact ⟨s, t₁, t₂, ρ, σ, by rw [hused]; exact Nat.one_pos, ht₁, ht₂, hcpus₁, hcpus₂, hrenamed, hunused⟩

end IrqBalance
