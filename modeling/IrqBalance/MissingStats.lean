import IrqBalance.Selection

/-!
# Cycles without statistics

When `/proc/stat` cannot be opened, or does not have all cpus, `parse_proc_stat` returns before it computes loads
of irqs. In front of `update_migration_status` every irq at an object then still has the load 0 that
`clear_work_stats` has written (`Spared`), or the cycle is the one of a rescan, in which `cycle_count` is 0. So
`move_candidate_irqs` takes no irq.
-/

namespace IrqBalance

open CString (Text loopBuffers)

variable {s s' t u : State} {pc pc' : Pc} {i : IrqId} {o : ObjId} {D : Set (Option ObjId)}

/-! ### Returning early -/

/-- `parse_proc_stat` returns before `aggregateStat`. -/
def StatsMissing (file : Option Text) (s : State) : Prop :=
  ∀ text, file = some text →
    ∃ r, parseStatLoop (loopBuffers s.opts.getlineKeeps id text) 0 s = some r ∧ r.1 ≠ r.2.cpus.length

theorem parseProcStat_missing {file : Option Text} (hmissing : StatsMissing file s)
    (h : parseProcStat file s = some s') : s'.irqs = s.irqs := by
  cases file with
  | none =>
    cases h
    rfl
  | some text =>
    obtain ⟨r, hr, hcount⟩ := hmissing text rfl
    obtain ⟨r', hr', h⟩ := Option.bind_eq_some_iff.1 h
    obtain rfl : r' = r := Option.some.inj (hr'.symm.trans hr)
    rw [if_pos hcount] at h
    cases h
    exact parseStatLoop_irqs hr

theorem Cleared.parseProcStat {file : Option Text} (h : Cleared s) (hmissing : StatsMissing file s)
    (hp : parseProcStat file s = some s') : Cleared s' := by
  have e := parseProcStat_noLoads hp
  refine h.congr (topology_of_noLoads e) (slot_of_noStats (noStats_of_noLoads e)) ?_
  unfold State.irqLoads
  rw [parseProcStat_missing hmissing hp]

theorem Cleared.forceRescan (h : Cleared s) : Cleared (forceRescan s) := by
  unfold IrqBalance.forceRescan
  split_ifs <;> exact h

/-- Taking irqs off objects does not give them a load. -/
theorem Cleared.rearrange (h : Cleared s) (hlive : Live s) (hr : Rearrange {none} s s') : Cleared s' := by
  intro o ho i hi
  rw [topology_of_static hr.static_eq] at ho
  exact (congrFun hr.irqLoads_eq i).trans (h o ho i (hr.mem_interrupts hlive ho hi))

/-! ### The cycle of a rescan -/

theorem cycleCount_of_noStats (e : s'.noStats = s.noStats) : s'.cycleCount = s.cycleCount :=
  show s'.noStats.cycleCount = s.noStats.cycleCount by rw [e]

theorem buildNumaNodeList_cycleCount (dir : Option (List NodeDir)) (s : State) :
    (buildNumaNodeList dir s).cycleCount = s.cycleCount := by
  unfold buildNumaNodeList
  dsimp only
  split_ifs
  · rfl
  · cases dir with
    | none => rfl
    | some entries =>
      refine (Loops.foldl_view State.cycleCount (fun s d => addOneNode d s) (fun u d => ?_) _ _).trans rfl
      unfold addOneNode
      cases d.cpumap <;> rfl

theorem parseCpuTree_cycleCount {fs : CpuSysfs} (h : parseCpuTree fs s = some s') :
    s'.cycleCount = s.cycleCount := by
  unfold parseCpuTree at h
  cases hdirs : fs.cpuDir with
  | none =>
    rw [hdirs] at h
    cases h
    rfl
  | some dirs =>
    rw [hdirs] at h
    have hstep : ∀ d ∈ dirs.filter isCpuDir, ∀ u u', doOneCpu d u = some u' → u'.cycleCount = u.cycleCount :=
      fun d _ u u' hu => show u'.sansTree.cycleCount = u.sansTree.cycleCount by rw [doOneCpu_sansTree hu]
    exact Eq.trans (Loops.foldlM_view State.cycleCount hstep h) rfl

theorem buildObjectTree_cycleCount {env : Env} (h : buildObjectTree env s = some s') :
    s'.cycleCount = s.cycleCount := by
  obtain ⟨s₁, h₁, h⟩ := Option.bind_eq_some_iff.1 h
  obtain ⟨tmpIrqs, -, -, hsans, -⟩ := rebuildIrqDb_place h
  have hcycle : s'.cycleCount = s₁.cycleCount := by
    change s'.sansIrqs.cycleCount = s₁.cycleCount
    rw [hsans]
    rfl
  exact hcycle.trans ((parseCpuTree_cycleCount h₁).trans (buildNumaNodeList_cycleCount _ s))

/-- The statements behind `cycle_count = 0` in the rescan block. -/
def Pc.resets : Pc → Bool
  | .rescanClearStats | .freeTree | .buildTree | .rescanForceRebalance | .rescanInterrupts | .rescanStat
  | .settleClearStats | .settleInterrupts | .settleStat => true
  | _ => false

/-- One of these statements. -/
theorem exec_resets {env : Env} (hs : pc.phase.Holds s) (hpc : pc.resets = true)
    (hexec : exec env pc s = some (pc', s')) : s'.cycleCount = s.cycleCount := by
  cases pc with
  | rescanClearStats | settleClearStats =>
    exact cycleCount_of_noStats (noStats_of_noLoads (clearWorkStats_noLoads (map_goto hexec).2))
  | freeTree =>
    cases hexec
    rfl
  | buildTree => exact buildObjectTree_cycleCount (map_goto hexec).2
  | rescanForceRebalance =>
    rw [Built.force hs (map_goto hexec).2]
    rfl
  | rescanInterrupts | settleInterrupts =>
    cases hexec
    exact cycleCount_of_noStats (parseProcInterrupts_noStats _ s)
  | rescanStat | settleStat =>
    exact cycleCount_of_noStats (noStats_of_noLoads (parseProcStat_noLoads (map_goto hexec).2))
  | _ => cases hpc

/-- The statement in front of one of these. -/
theorem resets_of_exec {env : Env} (hexec : exec env pc s = some (pc', s')) (hpc' : pc'.resets = true) :
    pc.resets = true ∨ s'.cycleCount = 0 := by
  cases pc with
  | resetCycleCount =>
    cases hexec
    exact Or.inr rfl
  | start =>
    obtain ⟨u, hu, hexec⟩ := Option.bind_eq_some_iff.1 hexec
    split_ifs at hexec <;> cases hexec <;> cases hpc'
  | migration =>
    unfold exec at hexec
    dsimp only at hexec
    split_ifs at hexec
    · cases hexec
      cases hpc'
    · rw [(map_goto hexec).1] at hpc'
      cases hpc'
  | loop | rescanTest =>
    cases hexec
    split_ifs at hpc' <;> cases hpc'
  | parseInterrupts | loopInterrupts | resetNeedRescan | countCycle =>
    cases hexec
    cases hpc'
  | forceRebalance | parseStat | loopClearStats | loopStat | placement | activation =>
    rw [(map_goto hexec).1] at hpc'
    cases hpc'
  | done => cases hexec
  | _ => exact Or.inl rfl

theorem forceRescan_cycleCount (s : State) : (forceRescan s).cycleCount = s.cycleCount := by
  unfold forceRescan
  split_ifs <;> rfl

/-- **In the cycle of a rescan `cycle_count` is 0.** -/
theorem Reach.cycleCount_eq_zero {A : Env → Pc → State → Prop} (h : Reach A pc s) (hpc : pc.resets = true) :
    s.cycleCount = 0 := by
  induction h with
  | init => cases hpc
  | step hreach _ hexec ih =>
    rcases resets_of_exec hexec hpc with hbefore | hzero
    · exact (exec_resets hreach.holds hbefore hexec).trans (ih hbefore)
    · exact hzero
  | hup _ _ ih => exact (forceRescan_cycleCount _).trans (ih hpc)

/-! ### The rest of the cycle -/

/-- In the rest of a cycle without statistics the irqs at the objects have no load, or the cycle is the one of a
rescan. -/
def Spared : Pc → State → Prop
  | .loopClearStats, _ | .loopInterrupts, _ | .loopStat, _ => False
  | .rescanTest, s => Cleared s
  | .migration, s => s.cycleCount = 0 ∨ Cleared s
  | _, _ => True

/-- One statement. -/
theorem Spared.exec {env : Env} (h : Spared pc s) (hreach : Reach anyStep pc s) (hpc : pc ≠ .loop)
    (hexec : exec env pc s = some (pc', s')) : Spared pc' s' := by
  cases pc with
  | loopClearStats | loopInterrupts | loopStat => exact h.elim
  | loop => exact absurd rfl hpc
  | rescanTest =>
    cases hexec
    split_ifs
    · trivial
    · exact Or.inr h
  | settleStat =>
    have hzero := exec_resets hreach.holds rfl hexec
    obtain ⟨rfl, -⟩ := map_goto hexec
    exact Or.inl (hzero.trans (hreach.cycleCount_eq_zero rfl))
  | start =>
    obtain ⟨u, -, hexec⟩ := Option.bind_eq_some_iff.1 hexec
    split_ifs at hexec <;> cases hexec <;> trivial
  | migration =>
    unfold IrqBalance.exec at hexec
    dsimp only at hexec
    split_ifs at hexec
    · cases hexec
      trivial
    · rw [(map_goto hexec).1]
      trivial
  | parseInterrupts | resetNeedRescan | resetCycleCount | freeTree | rescanInterrupts | settleInterrupts
  | countCycle =>
    cases hexec
    trivial
  | done => cases hexec
  | _ =>
    rw [(map_goto hexec).1]
    trivial

theorem Spared.forceRescan (h : Spared pc s) : Spared pc (forceRescan s) := by
  cases pc with
  | rescanTest => exact Cleared.forceRescan h
  | migration => exact Or.imp (forceRescan_cycleCount s).trans Cleared.forceRescan h
  | _ => exact h

theorem Spared.along {p : Pc × State} (h : Spared p.1 p.2) (hp : Reach anyStep p.1 p.2)
    (hrun : Along (· ≠ .loop) p pc s) : Spared pc s := by
  induction hrun with
  | refl => exact h
  | step hrun hpc hexec ih => exact ih.exec (hrun.reach hp) hpc hexec
  | hup _ _ ih => exact ih.forceRescan

/-- Behind a `parse_proc_stat` of the main loop that returns early. -/
theorem spared_of_missing {env : Env} (h : Reach anyStep pc s) (hpc : pc.readsStat = true) (hmain : pc ≠ .parseStat)
    (hexec : exec env pc s = some (pc', s')) (hmissing : StatsMissing env.procStat s) : Spared pc' s' := by
  cases pc with
  | loopStat =>
    obtain ⟨rfl, hu⟩ := map_goto hexec
    have hcleared : Cleared s := h.loadsReady rfl
    exact hcleared.parseProcStat hmissing hu
  | parseStat => exact absurd rfl hmain
  | rescanStat | settleStat =>
    refine Spared.exec ?_ h ?_ hexec
    · trivial
    · intro e
      cases e
  | _ => cases hpc

/-! ### Selecting nothing -/

theorem Cleared.moveCandidateIrqs_eq (h : Cleared s) (hlive : Live s) (ho : o ∈ s.topology)
    (hi : i ∈ (s.objs o).interrupts) (info : LoadBalanceInfo) :
    moveCandidateIrqs i (s, info) = some (s, info) := by
  have hhome : s.home i = some o := ((hlive.mem_slot (some_mem_slots.2 ho)).1 hi).2
  have hobj : ((s, info).1.irqs i).assignedObj = some o := hhome
  obtain ⟨q, hq⟩ := moveCandidateIrqs_isSome hobj
  rcases moveCandidateIrqs_cases hq with rfl | ⟨obj, hsel, -⟩
  · exact hq
  · have hload := hsel.load
    rw [h o ho i hi] at hload
    exact absurd hload (by decide)

/-- The calls for one object. -/
theorem Cleared.selectionCalls_eq (h : Cleared s) (hlive : Live s) (ho : o ∈ s.topology) (info : LoadBalanceInfo) :
    ∀ e ∈ selectionCalls o (s, info), moveCandidateIrqs e.1 e.2 = some e.2 := by
  intro e he
  unfold selectionCalls objSelectionCalls at he
  dsimp only at he
  split_ifs at he with hover
  · have hsort : Rearrange {none} s (sortIrqList (some o) s) := (Rearrange.refl s).sort (some_mem_slots.2 ho)
    have hlive' := hsort.live hlive
    have hcleared := h.rearrange hlive hsort
    have ho' : o ∈ (sortIrqList (some o) s).topology := by
      rw [topology_of_static hsort.static_eq]
      exact ho
    set q : State × LoadBalanceInfo :=
      (sortIrqList (some o) s, { countObj s info o with adjustmentLoad := (s.objs o).load }) with hq
    have hne : (q.1.objs o).interrupts ≠ [] := by
      intro hnil
      have hlength := (sort_interrupts_perm s o).length_eq
      rw [show ((sortIrqList (some o) s).objs o).interrupts = [] from hnil] at hlength
      have hmore := hover.2
      rw [← hlength] at hmore
      cases hmore
    have hcalls : forEachIrqCalls Prod.fst (fun s => (s.objs o).interrupts) moveCandidateIrqs q =
        Loops.calls (fun p => (p.1.objs o).interrupts) moveCandidateIrqs q := forEachIrqCalls_eq hne
    rw [hcalls] at he
    -- the walk stays in the state in which it starts
    have hstays : Loops.UnlinksSelf (fun p => p = q) (fun p : State × LoadBalanceInfo => (p.1.objs o).interrupts)
        moveCandidateIrqs := by
      intro j p p' hp hj hmove
      rw [hp] at hj hmove
      have hsame : moveCandidateIrqs j q = some q := hcleared.moveCandidateIrqs_eq hlive' ho' hj q.2
      have hp' : p' = q := Option.some.inj (hmove.symm.trans hsame)
      rw [hp', hp]
      exact ⟨rfl, Or.inl rfl⟩
    have hnodup : ∀ p : State × LoadBalanceInfo, p = q → (p.1.objs o).interrupts.Nodup := by
      intro p hp
      rw [hp]
      exact hlive'.interrupts_nodup ho'
    obtain ⟨hstate, hmem⟩ := Loops.mem_calls hnodup hstays rfl e he
    rw [hstate] at hmem ⊢
    exact hcleared.moveCandidateIrqs_eq hlive' ho' hmem q.2
  · cases he

/-- **Where the irqs at the objects have no load none is selected.** -/
theorem Cleared.overloadTurns_eq (h : Cleared s) (hlive : Live s) : ∀ c ∈ overloadTurns s,
    ∀ e ∈ selectionCalls c.1 c.2, moveCandidateIrqs e.1 e.2 = some e.2 := by
  intro c hc
  obtain ⟨⟨name, u⟩, hpass, hc⟩ := List.mem_flatMap.1 hc
  obtain ⟨hname, hr, -⟩ := mem_overloadPasses hlive _ hpass
  have hmem := (hlive.topo.layer_nodup hname).2
  obtain ⟨ho, hr'⟩ := Loops.mem_foldCalls (fun p : State × LoadBalanceInfo => Rearrange {none} s p.1)
    (fun o ho p p' hp hm => hp.trans (migrateOverloadedIrqs_rearrange (hp.live hlive)
      (by rw [topology_of_static hp.static_eq]; exact hmem o ho) hm)) hr c hc
  apply (h.rearrange hlive hr').selectionCalls_eq (hr'.live hlive)
  rw [topology_of_static hr'.static_eq]
  exact hmem _ ho

/-- **Missing statistics cause no migration**: in a cycle in which `parse_proc_stat` returns early no call of
`move_candidate_irqs` changes anything. -/
theorem missing_stats_move_nothing {env : Env} (h : Reach anyStep pc s) (hpc : pc.readsStat = true)
    (hmain : pc ≠ .parseStat) (hexec : exec env pc s = some (pc', s')) (hmissing : StatsMissing env.procStat s)
    (hrun : Along (· ≠ .loop) (pc', s') .migration u) (hcycle : u.cycleCount ≠ 0) :
    ∀ c ∈ overloadTurns u, ∀ e ∈ selectionCalls c.1 c.2, moveCandidateIrqs e.1 e.2 = some e.2 := by
  have hreach : Reach anyStep pc' s' := h.exec_any hexec
  have hspared : Spared .migration u :=
    Spared.along (p := (pc', s')) (spared_of_missing h hpc hmain hexec hmissing) hreach hrun
  have hcleared : Cleared u := hspared.resolve_left hcycle
  exact hcleared.overloadTurns_eq ((hrun.reach hreach).live rfl)

/-- `/proc/stat` of the three cpus with one of them, which has spent ten ticks. -/
def partialEnv : Env where
  procStat := some "cpu  1 2 3 4 5 6 7 8\ncpu0 1 2 3 4 5 6 17 8\n".toList

/-- Its irqs are looked at, and stay. -/
theorem missing_stats_move_nothing_threeCpus : ∃ u, u.cycleCount = 1 ∧
    (∃ c ∈ overloadTurns u, (selectionCalls c.1 c.2).map Prod.fst = [4, 0]) ∧
    ∀ c ∈ overloadTurns u, ∀ e ∈ selectionCalls c.1 c.2, moveCandidateIrqs e.1 e.2 = some e.2 := by
  have hrun : ((execs (List.replicate 16 quietEnv) (.start, State.initial {} fun _ => 0)).bind fun r₁ =>
      (exec partialEnv r₁.1 r₁.2).bind fun r₂ => (exec partialEnv r₂.1 r₂.2).map fun r₃ =>
        (r₁.1, r₂.1, r₃.1,
          [decide ((parseStatLoop (CString.loopBuffers r₁.2.opts.getlineKeeps id
              "cpu  1 2 3 4 5 6 7 8\ncpu0 1 2 3 4 5 6 17 8\n".toList) 0 r₁.2).map
              (fun q => decide (q.1 ≠ q.2.cpus.length)) = some true),
            decide (r₃.2.cycleCount = 1),
            (overloadTurns r₃.2).any fun c => decide ((selectionCalls c.1 c.2).map Prod.fst = [4, 0])])) =
      some (.loopStat, .rescanTest, .migration, [true, true, true]) := by
    decide +kernel
  obtain ⟨⟨pc, s⟩, h₁, hrun⟩ := Option.bind_eq_some_iff.1 hrun
  obtain ⟨⟨pc', s'⟩, h₂, hrun⟩ := Option.bind_eq_some_iff.1 hrun
  obtain ⟨⟨pc'', u⟩, h₃, hrun⟩ := Option.map_eq_some_iff.1 hrun
  simp only [Prod.mk.injEq, List.cons.injEq, decide_eq_true_eq, Option.map_eq_some_iff,
    List.any_eq_true] at hrun
  obtain ⟨rfl, rfl, rfl, ⟨r, hr, hcount⟩, hcycle, hcalls, -⟩ := hrun
  have hmissing : StatsMissing partialEnv.procStat s := by
    intro text htext
    cases htext
    exact ⟨r, hr, hcount⟩
  have hnext : Along (· ≠ .loop) (Pc.rescanTest, s') .migration u := by
    refine Along.refl.step ?_ h₃
    intro e
    cases e
  refine ⟨u, hcycle, hcalls, ?_⟩
  apply missing_stats_move_nothing ((Reach.init {} (fun _ => 0) rfl).execs_any h₁) rfl ?_ h₂ hmissing hnext
  · rw [hcycle]
    decide
  · intro e
    cases e

end IrqBalance
