import IrqBalance.FreshStart
import IrqBalance.MissingStats
import IrqBalance.Rescan

/-!
# The cycle of a rebuild

While `cycle_count` is 0 `parse_proc_stat` stores times and no loads, and no irq is at an object. So between a
rebuild and the placement all sums and shares are 0 (`Idle`), whatever the files say.
-/

namespace IrqBalance

variable {s s' t u : State} {pc pc' : Pc} {i : IrqId} {d o : ObjId}

/-- `cycle_count` is 0, and nothing has happened in the tree. -/
structure Idle (s : State) : Prop where
  cycleCount : s.cycleCount = 0
  loads : ∀ o ∈ s.topology, s.loads o = 0
  irqLoads : ∀ i ∈ s.interruptsDb, s.irqLoads i = 0
  interrupts : ∀ o ∈ s.topology, (s.objs o).interrupts = []
  awake : ∀ o ∈ s.topology, (s.objs o).powersaveMode = false

theorem Unused.idle (h : Unused s) (hcycle : s.cycleCount = 0) : Idle s where
  cycleCount := hcycle
  loads o ho := (h.objs o ho).load
  irqLoads i hi := (h.irqs i (List.mem_append_left _ hi)).2
  interrupts o ho := (h.objs o ho).interrupts
  awake o ho := (h.objs o ho).powersaveMode

/-! ### Reading the files -/

/-- Statements that leave the objects alone. -/
theorem Idle.of_objs (h : Idle s) (e : s'.noStats = s.noStats) (hobjs : s'.objs = s.objs)
    (hirqs : ∀ i, s.irqLoads i = 0 → s'.irqLoads i = 0) : Idle s' := by
  have htopology := topology_of_static (static_of_noStats e)
  refine ⟨(cycleCount_of_noStats e).trans h.cycleCount, ?_, fun i hi => hirqs i (h.irqLoads i ?_), ?_, ?_⟩
  · unfold State.loads
    rw [htopology, hobjs]
    exact h.loads
  · rwa [← interruptsDb_of_static (static_of_noStats e)]
  · rw [htopology, hobjs]
    exact h.interrupts
  · rw [htopology, hobjs]
    exact h.awake

theorem Idle.parseProcInterrupts (h : Idle s) (file : Option CString.Text) : Idle (parseProcInterrupts file s) := by
  refine h.of_objs (parseProcInterrupts_noStats file s) (parseProcInterrupts_objs file s) fun i hi => ?_
  cases file with
  | none => exact hi
  | some text =>
    rw [← hi]
    exact congrFun (parseInterruptsLoop_irqLoads _ s) i

theorem clearObjStats_zero (n : ℕ) (d : ObjId) (hi : s.irqLoads i = 0) (h : clearObjStats n d s = some s') :
    s'.irqLoads i = 0 := by
  induction n generalizing d s s' with
  | zero => cases h
  | succ n ih =>
    obtain ⟨t, ht, h⟩ := Option.bind_eq_some_iff.1 h
    exact forEachIrq_clearIrqStats_zero h
      (Loops.foldlM_inv (fun u : State => u.irqLoads i = 0) (fun c _ u u' hu hc => ih c hu hc) hi ht)

theorem Idle.clearWorkStats (h : Idle s) (hc : clearWorkStats s = some s') : Idle s' :=
  h.of_objs (noStats_of_noLoads (clearWorkStats_noLoads hc)) (clearWorkStats_objs hc) fun i hi =>
    Loops.foldlM_inv (fun u : State => u.irqLoads i = 0)
      (fun d _ u _ hu hd => clearObjStats_zero (depthBound u) d hu hd) hi hc

/-- The loop of `parse_proc_stat` stores no load. -/
theorem parseStatLoop_loads {ls : List CString.Text} {n : ℕ} {r : ℕ × State} (hcycle : s.cycleCount = 0)
    (h : parseStatLoop ls n s = some r) : r.2.loads = s.loads := by
  fun_induction parseStatLoop ls n s with
  | case1 | case2 | case5 | case6 => cases h; rfl
  | case3 => cases h
  | case4 _ _ _ _ _ _ _ _ ih => exact ih hcycle h
  | case7 _ _ _ s _ _ _ _ _ _ _ cpu _ _ ih =>
    refine (ih hcycle h).trans (funext fun o => ?_)
    unfold State.loads
    rw [State.modObj_objs]
    split_ifs <;> rfl

theorem Idle.of_loads (h : Idle s) (e : s'.noLoads = s.noLoads) (hloads : ∀ o ∈ s.topology, s'.loads o = 0)
    (hirqs : s'.irqs = s.irqs) : Idle s' := by
  have htopology := topology_of_noLoads e
  refine ⟨(cycleCount_of_noStats (noStats_of_noLoads e)).trans h.cycleCount, ?_, ?_, ?_, ?_⟩
  · rw [htopology]
    exact hloads
  · unfold State.irqLoads
    rw [interruptsDb_of_noLoads e, hirqs]
    exact h.irqLoads
  · intro o ho
    rw [htopology] at ho
    rw [interrupts_of_noLoads e]
    exact h.interrupts o ho
  · intro o ho
    rw [htopology] at ho
    change (s'.noLoads.objs o).powersaveMode = false
    rw [e]
    exact h.awake o ho

theorem sumLoads_eq_zero {l : List ObjId} (h : ∀ c ∈ l, s.loads c = 0) : sumLoads s l = 0 := by
  induction l with
  | nil => rfl
  | cons c l ih =>
    have hc : (s.objs c).load = 0 := h c List.mem_cons_self
    have hl := ih fun k hk => h k (List.mem_cons_of_mem c hk)
    unfold sumLoads at hl ⊢
    rw [List.foldl_cons, hc]
    exact hl

/-- Where the leaves have no load, and the containers have the sums, there is no load. -/
theorem Summed.loads_eq_zero (hs : Summed s) (h : TopoWf s) (hleaf : ∀ o ∈ s.topology, s.kids o = [] → s.loads o = 0) :
    ∀ o ∈ s.topology, s.loads o = 0 := by
  intro o ho
  induction hn : s.rank o using Nat.strong_induction_on generalizing o with
  | _ n ih =>
    by_cases hkids : s.kids o = []
    · exact hleaf o ho hkids
    · refine (hs.load o ho hkids).trans (sumLoads_eq_zero fun c hc => ?_)
      exact ih (s.rank c) (hn ▸ h.ranked.lt o ho c hc) c (h.mem_topology_of_kid ho hc) rfl

/-- Behind the count of the cpus there are no loads to add up or to share. -/
theorem Idle.aggregateStat (h : Idle s) (hlive : Live s) (ha : aggregateStat s = some t) : Idle t := by
  obtain ⟨u, hu, hnoLoads, hirqs, hleaf, hsummed⟩ := hlive.topo.sumStat
  have htopology := topology_of_noLoads hnoLoads
  have hidle : Idle u := by
    refine h.of_loads hnoLoads ?_ hirqs
    rw [← htopology]
    refine hsummed.loads_eq_zero (hlive.of_noLoads hnoLoads).topo fun o ho hkids => ?_
    rw [kids_of_noLoads hnoLoads] at hkids
    rw [htopology] at ho
    exact (hleaf o hkids).trans (h.loads o ho)
  rw [aggregateStat_eq, hu, Option.bind_some] at ha
  have hstays : t = u := by
    refine Loops.foldlM_inv (fun v => v = u) (fun d hd v v' hv hshare => ?_) rfl ha
    subst hv
    have hnil : (v.objs d).interrupts = [] := hidle.interrupts d (by
      simp only [State.topology, List.mem_append] at hd ⊢
      tauto)
    unfold computeIrqBranchLoadShare at hshare
    rw [if_pos hnil] at hshare
    exact (Option.some.inj hshare).symm
  rw [hstays]
  exact hidle

/-- **While `cycle_count` is 0 `parse_proc_stat` makes no load.** -/
theorem Idle.parseProcStat {file : Option CString.Text} (h : Idle s) (hlive : Live s)
    (hp : parseProcStat file s = some s') : Idle s' := by
  cases file with
  | none =>
    cases hp
    exact h
  | some text =>
    obtain ⟨r, hr, hp⟩ := Option.bind_eq_some_iff.1 hp
    have hnoLoads := parseStatLoop_noLoads hr
    have hidle : Idle r.2 := by
      refine h.of_loads hnoLoads ?_ (parseStatLoop_irqs hr)
      rw [parseStatLoop_loads h.cycleCount hr]
      exact h.loads
    split_ifs at hp
    · cases hp
      exact hidle
    · exact hidle.aggregateStat (hlive.of_noLoads hnoLoads) hp

theorem Idle.forceRescan (h : Idle s) : Idle (forceRescan s) := by
  unfold IrqBalance.forceRescan
  rw [if_pos h.cycleCount]
  exact h

/-! ### Runs -/

/-- Between a rebuild and the placement: nothing has happened in the tree, or there will be another rebuild. -/
def IdleAt : Pc → State → Prop
  | .start, _ | .activation, _ | .countCycle, _ => False
  | .resetNeedRescan, _ | .resetCycleCount, _ | .rescanClearStats, _ | .freeTree, _ | .buildTree, _ | .done, _ => True
  | _, s => Idle s

/-- Before `build_object_tree` `cycle_count` is 0. -/
theorem Reach.cycleCount_bare {A : Env → Pc → State → Prop} (h : Reach A pc s) (hpc : pc.phase = .bare) :
    s.cycleCount = 0 := by
  cases h with
  | init => rfl
  | step hreach hA hexec =>
    cases pc with
    | buildTree => exact (hreach.step hA hexec).cycleCount_eq_zero rfl
    | start =>
      cases exec_stmt hexec with
      | build _ hpc' => rcases hpc' with ⟨hpc', -⟩ | hpc' <;> cases hpc'
      | force _ hpc' => cases hpc'
      | quiet _ hpc' => rcases hpc' with hpc' | hpc' <;> cases hpc'
    | _ => cases hpc
  | hup hreach hstart =>
    cases pc with
    | buildTree => exact (hreach.hup hstart).cycleCount_eq_zero rfl
    | start => exact absurd rfl hstart
    | _ => cases hpc

/-- A rebuild. -/
theorem Reach.idleAt {A : Env → Pc → State → Prop} {env : Env} (h : Reach A pc s) (hpc : pc.phase = .bare)
    (hexec : exec env pc s = some (pc', s')) : IdleAt pc' s' := by
  have hbuild := exec_buildObjectTree hpc hexec
  have hidle : Idle s' :=
    (h.build_unused hpc hbuild).idle ((buildObjectTree_cycleCount hbuild).trans (h.cycleCount_bare hpc))
  cases pc with
  | start =>
    obtain ⟨u, -, hexec⟩ := Option.bind_eq_some_iff.1 hexec
    split_ifs at hexec
    · cases hexec
      trivial
    · cases hexec
      exact hidle
  | buildTree =>
    rw [(map_goto hexec).1]
    exact hidle
  | _ => cases hpc

/-- One statement. -/
theorem IdleAt.exec {env : Env} (h : IdleAt pc s) (hreach : Reach anyStep pc s) (hpc : pc ≠ .placement)
    (hexec : exec env pc s = some (pc', s')) : IdleAt pc' s' := by
  cases pc with
  | start | activation | countCycle => exact h.elim
  | placement => exact absurd rfl hpc
  | buildTree => exact hreach.idleAt rfl hexec
  | forceRebalance | rescanForceRebalance =>
    obtain ⟨rfl, hf⟩ := map_goto hexec
    have hidle : Idle s := h
    rw [Built.force hreach.holds hf]
    exact ⟨hidle.cycleCount, hidle.loads, hidle.irqLoads, hidle.interrupts, hidle.awake⟩
  | parseInterrupts | loopInterrupts | rescanInterrupts | settleInterrupts =>
    cases hexec
    exact Idle.parseProcInterrupts h _
  | parseStat | loopStat | rescanStat | settleStat =>
    obtain ⟨rfl, hp⟩ := map_goto hexec
    exact Idle.parseProcStat h (hreach.live rfl) hp
  | loopClearStats | settleClearStats =>
    obtain ⟨rfl, hc⟩ := map_goto hexec
    exact Idle.clearWorkStats h hc
  | loop =>
    cases hexec
    split_ifs
    · exact h
    · trivial
  | rescanTest =>
    cases hexec
    split_ifs
    · trivial
    · exact h
  | migration =>
    have hidle : Idle s := h
    unfold IrqBalance.exec at hexec
    dsimp only at hexec
    rw [if_pos hidle.cycleCount] at hexec
    cases hexec
    exact h
  | resetNeedRescan | resetCycleCount | freeTree =>
    cases hexec
    trivial
  | rescanClearStats =>
    rw [(map_goto hexec).1]
    trivial
  | done => cases hexec

theorem IdleAt.forceRescan (h : IdleAt pc s) : IdleAt pc (forceRescan s) := by
  cases pc with
  | start | activation | countCycle | resetNeedRescan | resetCycleCount | rescanClearStats | freeTree | buildTree
  | done => exact h
  | _ => exact Idle.forceRescan h

theorem IdleAt.along {p : Pc × State} (h : IdleAt p.1 p.2) (hp : Reach anyStep p.1 p.2)
    (hrun : Along (· ≠ .placement) p pc s) : IdleAt pc s := by
  induction hrun with
  | refl => exact h
  | step hrun hpc hexec ih => exact ih.exec (hrun.reach hp) hpc hexec
  | hup _ _ ih => exact ih.forceRescan

end IrqBalance
