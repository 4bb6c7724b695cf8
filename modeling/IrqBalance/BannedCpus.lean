import IrqBalance.Affinity

/-!
# Banned cpus

`do_one_cpu` takes the banned cpus out of the masks of cpus, cache domains and packages, but the mask of
the node has every bit set. An irq stays on the node when no package is eligible for it. This happens
when there is no package, and when a SUBSET hint misses all packages; its mask then has banned cpus.

`written_unbanned` says that this is the only way a mask with a banned cpu is written.
-/

namespace IrqBalance

variable {s s' : State} {i : IrqId} {o : ObjId}

/-! ### Irqs on the node -/

/-- An irq that is on the node misses all packages, and some cpu is not banned. -/
def NodeLast (s : State) : Prop :=
  ∀ i ∈ s.live, s.home i = some unspecifiedNode →
    s.unbannedCpus ≠ 0 ∧ ∀ p ∈ s.packages, HintMisses s i p

theorem hintMisses_of_static (e : s'.static = s.static) : HintMisses s' = HintMisses s := by
  have hmisses : ∀ t : State, HintMisses t.static = HintMisses t := fun _ => rfl
  rw [← hmisses s', e, hmisses]

theorem unbannedCpus_of_static (e : s'.static = s.static) : s'.unbannedCpus = s.unbannedCpus :=
  show s'.static.unbannedCpus = s.static.unbannedCpus by rw [e]

theorem NodeLast.congr (h : NodeLast s) (e : s'.static = s.static)
    (hhome : ∀ i, s'.home i = s.home i ∨ s'.home i ≠ some unspecifiedNode) : NodeLast s' := by
  intro i hi hnode
  rw [live_of_static e] at hi
  rw [packages_of_static e, hintMisses_of_static e, unbannedCpus_of_static e]
  rcases hhome i with hsame | hne
  · exact h i hi (hsame ▸ hnode)
  · exact absurd hnode hne

/-- A pass over objects does not bring an irq to the node. -/
theorem Down.node {ds : List ObjId} {info info' : IrqInfo} (h : Down s i ds info info')
    (htopo : TopoWf s) (hds : ∀ d ∈ ds, d ∈ s.topology)
    (hnode : info'.assignedObj = some unspecifiedNode) :
    info' = info ∧ ∀ d ∈ ds, info.assignedObj = some d → Stuck s d i info := by
  rcases h with hsame | ⟨d, hd, -, -, c, hc, -, rfl⟩
  · exact hsame
  · exact absurd (Option.some.inj hnode) (htopo.kid_ne_node (hds d hd) hc)

/-- No package and no cache domain sleeps, so only a hint can keep an irq from a package. -/
theorem hintMisses_of_ineligible (htopo : TopoWf s) (hsleep : OnlyCpusSleep s) {p : ObjId}
    (hp : p ∈ s.packages) (hin : ineligible s i p = true) : HintMisses s i p := by
  have hobj := htopo.isPackage p hp
  rcases (ineligible_iff (by rw [hobj.objType]; decide)).1 hin with hmiss | hpower
  · exact hmiss
  · have hcpu := hsleep p ((mem_topology htopo).2 (Or.inr (Or.inl hp))) hpower
    exact absurd rfl (hobj.ne (htopo.isCpu p hcpu) (by decide))

/-- With all cpus banned no irq is taken to the node. -/
theorem node_ineligible (htopo : TopoWf s) (hzero : s.unbannedCpus = 0) :
    ineligible s i unspecifiedNode = true := by
  unfold ineligible cpusIntersects
  simp [htopo.nodeType, hzero]

/-- An irq that is moved to the node and still there at the end of `calculate_placement` misses all
packages. -/
theorem NodeLast.place (h : NodeLast s) (hlive : Live s) (hsleep : OnlyCpusSleep s)
    (hp : calculatePlacement s = some s') : NodeLast s' := by
  intro i hi hnode
  have e := (calculatePlacement_rearrange hlive hp).static_eq
  rw [live_of_static e] at hi
  rw [packages_of_static e, hintMisses_of_static e, unbannedCpus_of_static e]
  rcases calculatePlacement_trail hlive hp hi with ⟨-, hirq⟩ | ⟨a, b, c, hfirst, h₁, h₂, h₃⟩
  · exact h i hi (by rw [State.home, ← hirq]; exact hnode)
  -- an irq that ends on the node was stuck there from the first pass on
  obtain ⟨e₃, -⟩ := h₃.node hlive.topo (fun d hd => by simp [State.topology, hd]) hnode
  rw [State.home, e₃] at hnode
  obtain ⟨e₂, -⟩ := h₂.node hlive.topo (fun d hd => by simp [State.topology, hd]) hnode
  rw [e₂] at hnode
  obtain ⟨e₁, hstuck⟩ := h₁.node hlive.topo
    (fun d hd => List.mem_singleton.1 hd ▸ unspecifiedNode_mem_topology hlive.topo) hnode
  rw [e₁] at hnode
  rcases hfirst with ⟨-, rfl⟩ | ⟨hnone, ⟨rfl, -⟩ | ⟨hin, rfl⟩⟩
  · exact h i hi hnode
  · have hhome : s.home i = some unspecifiedNode := hnode
    rw [hnone] at hhome
    cases hhome
  · rcases hstuck unspecifiedNode List.mem_cons_self hnode with hmoved | hstays | hkids
    · cases hmoved
    · rw [hlive.topo.nodeType] at hstays
      have hlevel : (s.irqs i).level = .none := by
        cases hl : (s.irqs i).level <;> simp_all [staysAt]
      exact absurd hlevel hi.2
    · refine ⟨fun hzero => ?_, fun p hpackage => hintMisses_of_ineligible hlive.topo hsleep hpackage
        (hkids p (by rw [hlive.topo.node_kids]; exact hpackage))⟩
      rw [node_ineligible hlive.topo hzero] at hin
      cases hin

theorem Reach.nodeLast {A : Env → Pc → State → Prop} {pc : Pc} (h : Reach A pc s)
    (hpc : pc.phase = .live) : NodeLast s := by
  have h' := h.and (fun pc s => pc.phase = .live → OnlyCpusSleep s)
    fun _ _ h hpc => h.onlyCpusSleep hpc
  refine h'.live_inv NodeLast ?_ ?_ ?_ ?_ ?_ hpc
  · intro s hs i hi hnode
    have hnone : (s.file s.interruptsDb).home i = none := (hs.isNew i hi.1).assignedObj
    rw [hnone] at hnode
    cases hnode
  · exact fun s s' _ hs e => hs.congr (static_of_quiet e) fun i => Or.inl (by rw [home_of_quiet e])
  · intro _ s s' _ hlive hs hm
    have hr := updateMigrationStatus_rearrange hlive hm
    refine hs.congr hr.static_eq fun i => (hr.home i).imp_right fun hnone => ?_
    rw [Set.mem_singleton_iff.1 hnone]
    exact (Option.some_ne_none _).symm
  · exact fun _ s s' hA hlive hs hp => hs.place hlive (hA.2 rfl) hp
  · intro _ s s' _ _ hs ha
    have e := activateMappings_unactivated ha
    exact hs.congr (static_of_unactivated e) fun i => Or.inl (by rw [home_of_unactivated e])

/-! ### What is written -/

/-- The mask that the irq has on the node. -/
def State.nodeMask (s : State) (i : IrqId) : Cpumask :=
  if (s.irqs i).hasHint .subset then (s.irqs i).affinityHint else cpuMaskAll

/-- The irq finds a package: there is one, and the SUBSET hint does not miss all of them. -/
def State.FindsPackage (s : State) (i : IrqId) : Prop := ∃ p ∈ s.packages, ¬HintMisses s i p

/-- A write of the mask that the irq has on the node is harmless: the mask has no banned cpu, or it is
not written, since it has no other cpu either, or the kernel has it already. -/
def State.NodeMaskOk (s : State) (i : IrqId) : Prop :=
  s.nodeMask i &&& s.bannedCpus = 0 ∨ s.nodeMask i &&& s.unbannedCpus = 0 ∨
    s.smpAffinity (s.number i) = s.nodeMask i

/-- Whenever `activate_mappings` starts, every balanced irq whose mask it may write finds a package, or
has a mask on the node that does no harm. An EXACT hint is compared with the banned cpus as it is. -/
def nodeAvoided (env : Env) (pc : Pc) (s : State) : Prop :=
  pc = .activation → ∀ i ∈ s.live, (s.irqs i).moved = true → (s.irqs i).hasHint .exact = false →
    env.procIrq.readable (s.number i) = true → env.procIrq.writable (s.number i) = true →
    s.FindsPackage i ∨ s.NodeMaskOk i

/-- The three kinds of targets. -/
theorem target_cases {m : Cpumask} (hm : s.target i o = some m) :
    ((s.irqs i).hasHint .exact = true ∧ m &&& s.bannedCpus = 0) ∨
    ((s.irqs i).hasHint .exact = false ∧ (s.irqs i).hasHint .subset = true ∧
      m = (s.objs o).mask &&& (s.irqs i).affinityHint ∧ m &&& s.unbannedCpus ≠ 0) ∨
    ((s.irqs i).hasHint .exact = false ∧ (s.irqs i).hasHint .subset = false ∧
      m = (s.objs o).mask) := by
  unfold State.target at hm
  unfold IrqInfo.hasHint cpusEmpty
  dsimp only at hm
  by_cases hhint : (s.irqs i).affinityHint = 0
  · rw [if_pos hhint] at hm
    cases hm
    exact Or.inr (Or.inr (by simp [hhint]))
  · rw [if_neg hhint] at hm
    cases hpolicy : (s.irqs i).hintPolicy <;> rw [hpolicy] at hm <;> dsimp only at hm
    · cases hm
      exact Or.inr (Or.inr (by simp))
    · split_ifs at hm with hmeet
      cases hm
      exact Or.inr (Or.inl (by simpa using ⟨hhint, hmeet⟩))
    · split_ifs at hm with hbanned
      cases hm
      exact Or.inl (by simpa using ⟨hhint, hbanned⟩)

/-- Off the node no target has a banned cpu. -/
theorem target_unbanned (htopo : TopoWf s) (ho : o ∈ s.topology) (hne : o ≠ unspecifiedNode)
    {m : Cpumask} (hm : s.target i o = some m) : m &&& s.bannedCpus = 0 := by
  have hmask := htopo.banned ho hne
  rcases target_cases hm with ⟨-, hexact⟩ | ⟨-, -, rfl, -⟩ | ⟨-, -, rfl⟩
  · exact hexact
  · rw [BitVec.and_assoc, BitVec.and_comm _ s.bannedCpus, ← BitVec.and_assoc, hmask]
    exact BitVec.zero_and
  · exact hmask

/-- On the node the target is the hint or all cpus. -/
theorem target_node (htopo : TopoWf s) {m : Cpumask} (hm : s.target i unspecifiedNode = some m) :
    m &&& s.bannedCpus = 0 ∨ (s.irqs i).hasHint .exact = false ∧ m = s.nodeMask i ∧
      (m &&& s.unbannedCpus = 0 → s.unbannedCpus = 0) := by
  have hall : ∀ x : Cpumask, cpuMaskAll &&& x = x := fun x => BitVec.allOnes_and
  unfold State.nodeMask
  rcases target_cases hm with ⟨-, hexact⟩ | ⟨hexact, hsubset, rfl, hmeet⟩ | ⟨hexact, hsubset, rfl⟩
  · exact Or.inl hexact
  · exact Or.inr ⟨hexact, by rw [if_pos hsubset, htopo.nodeMask, hall], fun h => absurd h hmeet⟩
  · refine Or.inr ⟨hexact, by rw [hsubset, htopo.nodeMask]; rfl, fun h => ?_⟩
    rwa [htopo.nodeMask, hall] at h

/-- **In every run in which no irq is written its mask on the node, no mask with a banned cpu is
written.** -/
theorem written_unbanned (h : Reach nodeAvoided .activation s) {env : Env}
    (hA : nodeAvoided env .activation s) :
    ∀ w ∈ affinityWrites env.procIrq s, w.2 &&& s.bannedCpus = 0 := by
  rintro ⟨n, m⟩ hw
  have hlive := h.live rfl
  obtain ⟨i, hi, -, hm⟩ := mem_affinityWrites hlive hw
  cases ho : (s.irqs i).assignedObj with
  | none => rw [writtenMask_unassigned ho] at hm; cases hm
  | some o =>
    obtain ⟨hmoved, htarget, hread, hwrite, hne⟩ := (writtenMask_eq_some_iff ho).1 hm
    have hi' : i ∈ s.live := by
      refine ⟨hi, fun hlevel => ?_⟩
      have hnone : s.home i = none := hlive.unplaced i hi hlevel
      rw [State.home, ho] at hnone
      cases hnone
    have hmem : o ∈ s.topology := by
      have hhome := hlive.bins.home_mem i hi'
      rw [show s.home i = some o from ho] at hhome
      exact some_mem_slots.1 hhome
    by_cases hnode : o = unspecifiedNode
    · subst hnode
      rcases target_node hlive.topo htarget with hok | ⟨hexact, rfl, hzero⟩
      · exact hok
      obtain ⟨hunbanned, hmiss⟩ := h.nodeLast rfl i hi' ho
      rcases hA rfl i hi' hmoved hexact hread hwrite with ⟨p, hp, hfind⟩ | hok | hok | hok
      · exact absurd (hmiss p hp) hfind
      · exact hok
      · exact absurd (hzero hok) hunbanned
      · exact absurd hok.symm hne
    · exact target_unbanned hlive.topo hmem hnode htarget

/-- The first cycle on two cpus. -/
theorem written_unbanned_twoCpus : ∃ s,
    execs (List.replicate 11 twoCpusEnv) (.start, State.initial {} fun _ => 0) =
      some (.activation, s) ∧
    (affinityWrites twoCpusEnv.procIrq s).length = 1 ∧
    ∀ w ∈ affinityWrites twoCpusEnv.procIrq s, w.2 &&& s.bannedCpus = 0 := by
  have hrun : (execs (List.replicate 11 twoCpusEnv) (.start, State.initial {} fun _ => 0)).map
      (fun r => (r.1, r.2.interruptsDb, r.2.packages, (r.2.irqs 0).hasHint .subset,
        (affinityWrites twoCpusEnv.procIrq r.2).length)) =
      some (.activation, [0], [3, 6], false, 1) := by
    decide +kernel
  obtain ⟨⟨pc, s⟩, hr, e⟩ := Option.map_eq_some_iff.1 hrun
  simp only [Prod.mk.injEq] at e
  obtain ⟨rfl, hdb, hpackages, hhint, hlen⟩ := e
  have hreach : Reach nodeAvoided .activation s := (Reach.init {} (fun _ => 0) rfl).execs .activation
    (fun _ _ _ _ hpc h => absurd h hpc) (by decide +kernel) hr
  refine ⟨s, hr, hlen, written_unbanned hreach fun _ i hi _ _ _ _ => Or.inl ⟨3, ?_, fun hmiss => ?_⟩⟩
  · rw [hpackages]
    exact List.mem_cons_self
  · have hi' : i ∈ s.interruptsDb := hi.1
    rw [hdb, List.mem_singleton] at hi'
    rw [hi', HintMisses, hhint] at hmiss
    cases hmiss.1

/-- The machine with both cpus banned. -/
def allBannedEnv : Env := { twoCpusEnv with cpuSysfs := { twoCpus with bannedCpus := some ['3'] } }

/-- With all cpus of the machine banned there is no package, and all bits are written. -/
theorem banned_written : ∃ s, Reach anyStep .activation s ∧
    ∃ w ∈ affinityWrites allBannedEnv.procIrq s, w.2 &&& s.bannedCpus ≠ 0 := by
  have hrun : (execs (List.replicate 11 allBannedEnv) (.start, State.initial {} fun _ => 0)).map
      (fun r => (r.1, (affinityWrites allBannedEnv.procIrq r.2).map fun w =>
        (w.2 &&& r.2.bannedCpus).toNat)) = some (.activation, [3]) := by
    decide +kernel
  obtain ⟨⟨pc, s⟩, hr, e⟩ := Option.map_eq_some_iff.1 hrun
  simp only [Prod.mk.injEq] at e
  obtain ⟨rfl, hmasks⟩ := e
  obtain ⟨w, hw, hthree⟩ := List.mem_map.1 (hmasks ▸ List.mem_singleton_self 3)
  refine ⟨s, (Reach.init {} (fun _ => 0) rfl).execs_any hr, w, hw, fun hzero => ?_⟩
  rw [hzero] at hthree
  exact absurd hthree (by decide +kernel)

end IrqBalance
