import IrqBalance.Powersave

/-!
# Sleeping cpus as targets

`find_best_object` leaves a sleeping object out, but only cpus sleep: the search for a package and for
a cache domain does not ask whether the cpus beneath them are awake. An irq that is sent to a package
or a cache domain whose cpus all sleep stays there.
-/

namespace IrqBalance

variable {s s' : State} {i : IrqId} {o k : ObjId}

/-- The object `k` is the object `o` or beneath it. -/
inductive State.Beneath (s : State) : ObjId → ObjId → Prop
  | refl (o : ObjId) : s.Beneath o o
  | step {o c k : ObjId} (hc : c ∈ s.kids o) (h : s.Beneath c k) : s.Beneath o k

/-- The object is, or has beneath it, a cpu that is awake. -/
def State.AwakeBeneath (s : State) (o : ObjId) : Prop :=
  ∃ k ∈ s.cpus, s.Beneath o k ∧ (s.objs k).powersaveMode = false

theorem State.Beneath.congr (h : s.Beneath o k) (hkids : s'.kids = s.kids) : s'.Beneath o k := by
  induction h with
  | refl o => exact .refl o
  | step hc _ ih => exact .step (hkids ▸ hc) ih

theorem State.AwakeBeneath.congr (h : s.AwakeBeneath o) (e : s'.unmoved = s.unmoved) :
    s'.AwakeBeneath o := by
  obtain ⟨k, hk, hbelow, hawake⟩ := h
  have hcpus : s'.cpus = s.cpus := show s'.unmoved.cpus = s.unmoved.cpus by rw [e]
  have hkids : s'.kids = s.kids := show s'.unmoved.kids = s.unmoved.kids by rw [e]
  exact ⟨k, hcpus ▸ hk, hbelow.congr hkids, by rw [powersaveMode_of_unmoved e]; exact hawake⟩

/-- Every package, and for an irq that goes below the packages every cache domain, has a cpu that is
awake. -/
def DescentAwake (s : State) (level : BalanceLevel) : Prop :=
  (∀ p ∈ s.packages, s.AwakeBeneath p) ∧
    (level ≠ .package → ∀ c ∈ s.cacheDomains, s.AwakeBeneath c)

/-- Without a hint only sleeping objects below the node are left out. -/
theorem eligible_of_awake (ho : (s.objs o).objType ≠ .node)
    (hhint : (s.irqs i).hasHint .subset = false) (hawake : (s.objs o).powersaveMode = false) :
    ineligible s i o = false := by
  rw [← Bool.not_eq_true, ineligible_iff ho, HintMisses, hhint, hawake]
  simp

/-- A cpu leaves an unbanned cpu, so that the node, whose mask is full, is eligible. -/
theorem node_eligible (htopo : TopoWf s) (hsleep : OnlyCpusSleep s) (hk : k ∈ s.cpus) :
    ineligible s i unspecifiedNode = false := by
  have hcpu := htopo.isCpu k hk
  have hawake : (s.objs unspecifiedNode).powersaveMode = false := by
    rw [← Bool.not_eq_true]
    intro hpower
    have hnode := hsleep _ (unspecifiedNode_mem_topology htopo) hpower
    exact htopo.ne_node (htopo.isCpu _ hnode) (by decide) rfl
  have hunbanned : s.unbannedCpus ≠ 0 := by
    intro hzero
    rw [htopo.unbanned] at hzero
    have hall : s.bannedCpus = BitVec.allOnes nrCpus := by
      rw [← BitVec.not_not (b := s.bannedCpus), hzero]
      exact BitVec.not_zero
    have hmask := hcpu.banned
    rw [hall, BitVec.and_allOnes] at hmask
    exact htopo.cpu_mask k hk hmask
  unfold ineligible cpusIntersects IrqInfo.hasHint
  simp only [htopo.numaAvail, htopo.nodeMask, hawake, cpuMaskAll, BitVec.allOnes_and, BitVec.and_allOnes]
  simpa using fun _ => hunbanned

theorem exists_package (htopo : TopoWf s) (hk : k ∈ s.cpus) : ∃ p, p ∈ s.packages := by
  obtain ⟨c, hc, -⟩ := htopo.in_cache k hk
  obtain ⟨p, hp, -⟩ := htopo.in_package c hc
  exact ⟨p, hp⟩

theorem OnlyCpusSleep.package_awake (h : OnlyCpusSleep s) (htopo : TopoWf s) (ho : o ∈ s.packages) :
    (s.objs o).powersaveMode = false := by
  rw [← Bool.not_eq_true]
  intro hpower
  have hcpu := h o ((mem_topology htopo).2 (Or.inr (Or.inl ho))) hpower
  exact (htopo.isPackage o ho).ne (htopo.isCpu o hcpu) (by decide) rfl

/-- **An irq without a hint is placed above a cpu that is awake, if every package, and every cache
domain for an irq that goes below the packages, has such a cpu.** -/
theorem placed_above_awake (s s' : State) (h : Reach anyStep .placement s)
    (hp : calculatePlacement s = some s') (hawake : ∃ k ∈ s.cpus, (s.objs k).powersaveMode = false)
    (i : IrqId) (hi : i ∈ s.rebalanceIrqList) (hhint : (s.irqs i).hasHint .subset = false)
    (hdescent : DescentAwake s (s.irqs i).level) :
    ∃ o, s'.home i = some o ∧ s'.AwakeBeneath o := by
  have hlive := h.live rfl
  have hsleep := h.onlyCpusSleep rfl
  have htopo := hlive.topo
  obtain ⟨k, hk, -⟩ := hawake
  obtain ⟨hi', hhome⟩ := (hlive.mem_slot (none_mem_slots s)).1 hi
  obtain ⟨o, ho, hlands⟩ := calculatePlacement_lands hlive hp hi' hhome
    (node_eligible htopo hsleep hk)
  refine ⟨o, ho, State.AwakeBeneath.congr ?_ (calculatePlacement_unmoved hp)⟩
  -- down from the node, through a package and a cache domain
  cases hlands with
  | stays hstay =>
    have hnone : (s.irqs i).level = .none := by
      rw [htopo.nodeType] at hstay
      cases hl : (s.irqs i).level <;> simp [hl, staysAt] at hstay ⊢
    exact absurd hnone hi'.2
  | stuck hstuck =>
    obtain ⟨p, hp⟩ := exists_package htopo hk
    have heligible := eligible_of_awake (i := i) (by rw [(htopo.isPackage p hp).objType]; decide) hhint
      (hsleep.package_awake htopo hp)
    rw [hstuck p (htopo.node_kids ▸ hp)] at heligible
    cases heligible
  | @down _ p _ _ hp _ hlands =>
    rw [htopo.node_kids] at hp
    cases hlands with
    | stays _ => exact hdescent.1 _ hp
    | stuck _ => exact hdescent.1 _ hp
    | @down _ c _ hstay hc _ hlands =>
      have hlevel : (s.irqs i).level ≠ .package := by
        intro e
        rw [e, (htopo.isPackage p hp).objType] at hstay
        cases hstay
      have hcc := htopo.package_kids p hp c hc
      cases hlands with
      | stays _ => exact hdescent.2 hlevel _ hcc
      | stuck _ => exact hdescent.2 hlevel _ hcc
      | @down _ k' _ _ hk' hin hlands =>
        have hkk := htopo.cache_kids c hcc k' hk'
        have hbelow : s.AwakeBeneath k' := ⟨k', hkk, .refl k', awake_of_eligible hin⟩
        cases hlands with
        | stays _ => exact hbelow
        | stuck _ => exact hbelow
        | down _ hx _ _ =>
          rw [htopo.cpu_kids k' hkk] at hx
          cases hx

/-- The first placement on the machine with two cpus. -/
theorem placed_above_awake_twoCpus : ∃ s s', calculatePlacement s = some s' ∧
    s.rebalanceIrqList = [0] ∧ ∃ o, s'.home 0 = some o ∧ s'.AwakeBeneath o := by
  have hrun : (execs (List.replicate 10 twoCpusEnv) (.start, State.initial {} fun _ => 0)).map
      (fun r => (r.1, (r.2.irqs 0).hasHint .subset :: [1, 4].map fun k => (r.2.objs k).powersaveMode,
        r.2.cpus :: r.2.rebalanceIrqList :: r.2.packages :: r.2.cacheDomains ::
          [3, 2, 6, 5].map fun o => (r.2.objs o).children,
        (calculatePlacement r.2).isSome)) =
      some (.placement, [false, false, false],
        [[1, 4], [0], [3, 6], [2, 5], [2], [1], [5], [4]], true) := by
    decide +kernel
  obtain ⟨⟨pc, s⟩, hr, e⟩ := Option.map_eq_some_iff.1 hrun
  simp only [Prod.mk.injEq, List.map_cons, List.map_nil, List.cons.injEq] at e
  obtain ⟨rfl, ⟨hhint, h1, h4, -⟩, ⟨hcpus, hlist, hpackages, hcaches, h3, h2, h6, h5, -⟩, hsome⟩ := e
  obtain ⟨s', hp⟩ := Option.isSome_iff_exists.1 hsome
  have hbelow2 : s.Beneath 2 1 := .step (by rw [State.kids, h2]; exact List.mem_cons_self) (.refl 1)
  have hbelow5 : s.Beneath 5 4 := .step (by rw [State.kids, h5]; exact List.mem_cons_self) (.refl 4)
  have hbelow3 : s.Beneath 3 1 := .step (by rw [State.kids, h3]; exact List.mem_cons_self) hbelow2
  have hbelow6 : s.Beneath 6 4 := .step (by rw [State.kids, h6]; exact List.mem_cons_self) hbelow5
  have hk1 : 1 ∈ s.cpus := by rw [hcpus]; decide
  have hk4 : 4 ∈ s.cpus := by rw [hcpus]; decide
  have hdescent : DescentAwake s (s.irqs 0).level := by
    constructor
    · rw [hpackages]
      simp only [List.mem_cons, List.not_mem_nil, or_false, forall_eq_or_imp, forall_eq]
      exact ⟨⟨1, hk1, hbelow3, h1⟩, ⟨4, hk4, hbelow6, h4⟩⟩
    · rw [hcaches]
      simp only [List.mem_cons, List.not_mem_nil, or_false, forall_eq_or_imp, forall_eq]
      exact fun _ => ⟨⟨1, hk1, hbelow2, h1⟩, ⟨4, hk4, hbelow5, h4⟩⟩
  exact ⟨s, s', hp, hlist, placed_above_awake s s' ((Reach.init {} (fun _ => 0) rfl).execs_any hr) hp
    ⟨1, hk1, h1⟩ 0 (by rw [hlist]; exact List.mem_cons_self) hhint hdescent⟩

/-- The machine with two cpus, with `--powerthresh=1`, at the placement of the seventh cycle. The irq has
just been taken off the first cpu, which has fallen asleep. -/
theorem seventhPlacement : ∃ s s', Reach anyStep .placement s ∧ calculatePlacement s = some s' ∧
    s.cpus = [1, 4] ∧ s.rebalanceIrqList = [0] ∧ (s.irqs 0).hasHint .subset = false ∧
    (s.objs 4).powersaveMode = false ∧ (s.objs 1).powersaveMode = true ∧
    (s.objs 1).children = [] ∧ (s.objs 2).children = [1] ∧ s'.home 0 = some 2 := by
  have hrun : (execs (List.replicate 64 twoCpusEnv)
      (.start, State.initial { powerThresh := 1 } fun _ => 0)).map (fun r =>
        (r.1, (r.2.irqs 0).hasHint .subset :: [4, 1].map fun k => (r.2.objs k).powersaveMode,
          r.2.cpus :: r.2.rebalanceIrqList :: [1, 2].map fun o => (r.2.objs o).children,
          (calculatePlacement r.2).map fun t => t.home 0)) =
      some (.placement, [false, false, true], [[1, 4], [0], [], [1]], some (some 2)) := by
    decide +kernel
  obtain ⟨⟨pc, s⟩, hr, e⟩ := Option.map_eq_some_iff.1 hrun
  simp only [Prod.mk.injEq, List.map_cons, List.map_nil, List.cons.injEq] at e
  obtain ⟨rfl, ⟨hhint, h4, h1, -⟩, ⟨hcpus, hlist, hkids1, hkids2, -⟩, hhome⟩ := e
  obtain ⟨s', hp, hhome⟩ := Option.map_eq_some_iff.1 hhome
  exact ⟨s, s', (Reach.init { powerThresh := 1 } (fun _ => 0) rfl).execs_any hr, hp, hcpus, hlist, hhint,
    h4, h1, hkids1, hkids2, hhome⟩

/-- The irq goes back to the cache domain of the sleeping cpu, though the other cpu is awake. -/
theorem placed_above_sleeper : ¬ ∀ (s s' : State), Reach anyStep .placement s →
    calculatePlacement s = some s' → (∃ k ∈ s.cpus, (s.objs k).powersaveMode = false) →
      ∀ i ∈ s.rebalanceIrqList, (s.irqs i).hasHint .subset = false → (s.irqs i).level ≠ .none →
        ∃ o, s'.home i = some o ∧ s'.AwakeBeneath o := by
  intro h
  obtain ⟨s, s', hreach, hp, hcpus, hlist, hhint, h4, h1, hkids1, hkids2, hhome⟩ := seventhPlacement
  have hi : 0 ∈ s.rebalanceIrqList := by rw [hlist]; exact List.mem_cons_self
  have hlevel : (s.irqs 0).level ≠ .none :=
    (((hreach.live rfl).mem_slot (none_mem_slots s)).1 hi).1.2
  obtain ⟨o, ho, k, hk, hbelow, hawake⟩ :=
    h s s' hreach hp ⟨4, by rw [hcpus]; decide, h4⟩ 0 hi hhint hlevel
  have e := calculatePlacement_unmoved hp
  have hkids : s'.kids = s.kids := show s'.unmoved.kids = s.unmoved.kids by rw [e]
  have hcpus' : s'.cpus = s.cpus := show s'.unmoved.cpus = s.unmoved.cpus by rw [e]
  rw [hhome, Option.some.injEq] at ho
  subst ho
  rw [hcpus', hcpus] at hk
  -- beneath the cache domain there is the sleeping cpu only
  cases hbelow with
  | refl => simp at hk
  | step hc hbelow =>
    rw [hkids, State.kids, hkids2, List.mem_singleton] at hc
    subst hc
    cases hbelow with
    | refl =>
      rw [powersaveMode_of_unmoved e, h1] at hawake
      cases hawake
    | step hc _ =>
      rw [hkids, State.kids, hkids1] at hc
      cases hc

end IrqBalance
