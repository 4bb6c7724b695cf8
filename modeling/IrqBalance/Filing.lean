import IrqBalance.MainLoop

/-!
# Every irq is in the list that its `assigned_obj` names

`irqs_filed` is the invariant of the main loop in the words of the lists themselves, and what follows
for the callbacks that go to `info->assigned_obj->interrupts`: `move_candidate_irqs` and
`force_irq_migration` never meet a null pointer there, nor a list without the irq, and
`force_rebalance_irq` never goes there.
-/

namespace IrqBalance

variable {s s' : State} {i : IrqId} {o : ObjId}

/-! ### The calls of the callbacks -/

/-- The calls of `move_candidate_irqs` for one object. -/
def migrateObjIrqsCalls (obj : ObjId) (p : State × LoadBalanceInfo) : List (IrqId × State) :=
  let s := p.1
  let info := p.2
  let o := s.objs obj
  if info.minLoad < o.load ∧ 1 < o.interrupts.length then
    (forEachIrqCalls Prod.fst (fun s => (s.objs obj).interrupts) moveCandidateIrqs
      (sortIrqList (some obj) s, { info with adjustmentLoad := o.load })).map fun c => (c.1, c.2.1)
  else []

/-- The calls of `move_candidate_irqs` in `find_overloaded_objs`. -/
def findOverloadedObjsCalls (name : List ObjId) (s : State) : List (IrqId × State) :=
  (Loops.foldCalls migrateOverloadedIrqs name (s, loadStats name s)).flatMap fun c =>
    migrateObjIrqsCalls c.1 (c.2.1, countObj c.2.1 c.2.2 c.1)

/-- The calls of `force_irq_migration`. -/
def updatePowersaveCalls (s : State) (info : LoadBalanceInfo) : List (IrqId × State) :=
  match info.powersave with
  | none => []
  | some cpu =>
    if (s.opts.powerThresh ≠ ullongMax ∧ 5 < s.cycleCount) ∧
        info.numOver = 0 ∧ s.opts.powerThresh.toNat ≤ info.numUnder then
      let s := s.modObj cpu fun o => { o with powersaveMode := true }
      if (s.objs cpu).interrupts = [] then []
      else forEachIrqCalls id (fun s => (s.objs cpu).interrupts) forceIrqMigration s
    else []

/-- The calls of both in `update_migration_status`, with the states they are given. -/
def updateMigrationStatusCalls (s : State) : List (IrqId × State) :=
  findOverloadedObjsCalls s.cpus s ++ (findOverloadedObjs s.cpus s).elim [] fun r =>
  updatePowersaveCalls r.1 r.2 ++ (updatePowersave r.1 r.2).elim [] fun s =>
  findOverloadedObjsCalls s.cacheDomains s ++ (findOverloadedObjs s.cacheDomains s).elim [] fun r =>
  findOverloadedObjsCalls r.1.packages r.1 ++ (findOverloadedObjs r.1.packages r.1).elim [] fun r =>
  findOverloadedObjsCalls r.1.numaNodes r.1

/-- The calls of `force_rebalance_irq`. -/
def forceRebalanceCalls (s : State) : List (IrqId × State) :=
  forEachIrqCalls id State.interruptsDb forceRebalanceIrq s

/-- `info->assigned_obj->interrupts` is a list, and the irq is in it. -/
def State.Followable (s : State) (i : IrqId) : Prop :=
  ∃ o, (s.irqs i).assignedObj = some o ∧ i ∈ (s.objs o).interrupts

theorem Live.followable (h : Live s) (ha : some o ∈ s.slots) (hi : i ∈ s.slot (some o)) :
    s.Followable i :=
  ⟨o, ((h.mem_slot ha).1 hi).2, hi⟩

theorem migrateObjIrqsCalls_followable {p : State × LoadBalanceInfo} (h : Live p.1)
    (ho : o ∈ p.1.topology) : ∀ c ∈ migrateObjIrqsCalls o p, c.2.Followable c.1 := by
  intro c hc
  unfold migrateObjIrqsCalls at hc
  dsimp only at hc
  split_ifs at hc with hover
  · obtain ⟨d, hd, rfl⟩ := List.mem_map.1 hc
    have hne : ((sortIrqList (some o) p.1).objs o).interrupts ≠ [] := sort_interrupts_ne_nil hover.2
    rw [forEachIrqCalls_eq hne] at hd
    have hsort : Rearrange {none} p.1 (sortIrqList (some o) p.1) :=
      (Rearrange.refl _).sort (some_mem_slots.2 ho)
    obtain ⟨hlive, ha, hmem⟩ := (moveCandidateIrqs_shifts o).mem_calls (by exact hsort.live h)
      (by exact hsort.mem_slots (some_mem_slots.2 ho)) d hd
    exact hlive.followable ha hmem
  · cases hc

theorem findOverloadedObjsCalls_followable {name : List ObjId} (h : Live s)
    (hname : ∀ o ∈ name, o ∈ s.topology) :
    ∀ c ∈ findOverloadedObjsCalls name s, c.2.Followable c.1 := by
  intro c hc
  obtain ⟨d, hd, hc⟩ := List.mem_flatMap.1 hc
  obtain ⟨hd', hr⟩ := Loops.mem_foldCalls (fun p : State × LoadBalanceInfo => Rearrange {none} s p.1)
    (fun o ho p p' hp hm => hp.trans (migrateOverloadedIrqs_rearrange (hp.live h)
      (by rw [topology_of_static hp.static_eq]; exact hname o ho) hm)) (Rearrange.refl s) d hd
  generalize hq : (d.2.1, countObj d.2.1 d.2.2 d.1) = q at hc
  have hfst : q.1 = d.2.1 := by rw [← hq]
  rw [← hfst] at hr
  refine migrateObjIrqsCalls_followable (hr.live h) ?_ c hc
  rw [topology_of_static hr.static_eq]
  exact hname _ hd'

theorem updatePowersaveCalls_followable {info : LoadBalanceInfo} (h : Live s)
    (hinfo : ∀ k, info.powersave = some k → k ∈ s.cpus) :
    ∀ c ∈ updatePowersaveCalls s info, c.2.Followable c.1 := by
  intro c hc
  unfold updatePowersaveCalls at hc
  cases hp : info.powersave with
  | none => rw [hp] at hc; cases hc
  | some k =>
    rw [hp] at hc
    dsimp only at hc
    have hk := hinfo k hp
    have hsleep : Rearrange {none} s (s.modObj k fun o => { o with powersaveMode := true }) :=
      (Rearrange.refl s).sleep hk true
    split_ifs at hc with henter hnil
    · cases hc
    · rw [forEachIrqCalls_eq hnil] at hc
      obtain ⟨hlive, ha, hmem⟩ := (forceIrqMigration_shifts k).mem_calls (by exact hsleep.live h)
        (by exact hsleep.mem_slots (some_mem_slots.2 (mem_topology_of_cpu hk))) c hc
      exact hlive.followable ha hmem
    · cases hc

/-- **All calls in `update_migration_status` find the irq in the list they follow.** -/
theorem updateMigrationStatusCalls_followable (h : Live s) :
    ∀ c ∈ updateMigrationStatusCalls s, c.2.Followable c.1 := by
  intro c hc
  unfold updateMigrationStatusCalls at hc
  simp only [List.mem_append, Loops.mem_elim] at hc
  have hcpus : ∀ o ∈ s.cpus, o ∈ s.topology := fun o ho => mem_topology_of_cpu ho
  rcases hc with hc | ⟨r₁, h₁, hc⟩
  · exact findOverloadedObjsCalls_followable h hcpus c hc
  have hr₁ := findOverloadedObjs_rearrange h hcpus h₁
  have hpowersave : ∀ k, r₁.2.powersave = some k → k ∈ r₁.1.cpus := fun k hk => by
    rw [cpus_of_static hr₁.static_eq]
    exact findOverloadedObjs_powersave h₁ k hk
  have live₁ := hr₁.live h
  rcases hc with hc | ⟨s₂, h₂, hc⟩
  · exact updatePowersaveCalls_followable live₁ hpowersave c hc
  have live₂ := (updatePowersave_rearrange live₁ hpowersave h₂).live live₁
  have hcaches : ∀ o ∈ s₂.cacheDomains, o ∈ s₂.topology := fun o ho => by
    simp [State.topology, ho]
  rcases hc with hc | ⟨r₃, h₃, hc⟩
  · exact findOverloadedObjsCalls_followable live₂ hcaches c hc
  have live₃ := (findOverloadedObjs_rearrange live₂ hcaches h₃).live live₂
  have hpackages : ∀ o ∈ r₃.1.packages, o ∈ r₃.1.topology := fun o ho => by
    simp [State.topology, ho]
  rcases hc with hc | ⟨r₄, h₄, hc⟩
  · exact findOverloadedObjsCalls_followable live₃ hpackages c hc
  have live₄ := (findOverloadedObjs_rearrange live₃ hpackages h₄).live live₃
  exact findOverloadedObjsCalls_followable live₄ (fun o ho => by simp [State.topology, ho]) c hc

/-- When `force_rebalance_irq` is called, no irq has an object yet. -/
theorem forceRebalanceCalls_unassigned (h : Built s) :
    ∀ c ∈ forceRebalanceCalls s, (c.2.irqs c.1).assignedObj = none := by
  intro c hc
  have hcalls : c ∈ Loops.calls State.interruptsDb forceRebalanceIrq s := by
    unfold forceRebalanceCalls forEachIrqCalls at hc
    simpa using hc
  have hunlinks : Loops.UnlinksSelf (fun t => t.irqs = s.irqs ∧ t.interruptsDb = s.interruptsDb)
      State.interruptsDb forceRebalanceIrq := by
    rintro i t u ⟨hirqs, hdb⟩ hi hu
    have hnew : (t.irqs i).assignedObj = none := by
      rw [hirqs]
      exact (h.isNew i (hdb ▸ hi)).assignedObj
    rw [forceRebalanceIrq_new hnew] at hu
    cases hu
    exact ⟨⟨hirqs, hdb⟩, Or.inl rfl⟩
  obtain ⟨⟨hirqs, hdb⟩, hmem⟩ := Loops.mem_calls (fun t ht => ht.2 ▸ h.db.interruptsDb_nodup)
    hunlinks ⟨rfl, rfl⟩ c hcalls
  rw [hirqs]
  exact (h.isNew c.1 (hdb ▸ hmem)).assignedObj

/-! ### The lists -/

/-- `rebalance_irq_list` and the `interrupts` of all objects, one after the other. -/
def State.allLists (s : State) : List IrqId :=
  s.rebalanceIrqList ++ s.topology.flatMap fun o => (s.objs o).interrupts

theorem allLists_eq (s : State) : s.allLists = (none :: s.topology.map some).flatMap s.slot := by
  rw [List.flatMap_cons, List.flatMap_map]
  rfl

theorem mem_cons_topology (a : Option ObjId) : a ∈ none :: s.topology.map some ↔ a ∈ s.slots := by
  cases a with
  | none => exact iff_of_true List.mem_cons_self (none_mem_slots s)
  | some o => simp [some_mem_slots]

/-- In every run the lists hold irqs of the database only. -/
theorem Reach.mem_interruptsDb {A : Env → Pc → State → Prop} {pc : Pc} (h : Reach A pc s)
    (hi : i ∈ s.allLists) : i ∈ s.interruptsDb := by
  have hbuilt : Built s → i ∈ s.interruptsDb := by
    intro hs
    rw [State.allLists, hs.rebalanceIrqList, List.nil_append] at hi
    obtain ⟨o, ho, hi⟩ := List.mem_flatMap.1 hi
    rw [hs.interrupts o ho] at hi
    cases hi
  have hlive : Live s → i ∈ s.interruptsDb := by
    intro hs
    rw [allLists_eq, List.mem_flatMap] at hi
    obtain ⟨a, ha, hi⟩ := hi
    exact ((hs.mem_slot ((mem_cons_topology a).1 ha)).1 hi).1.1
  have hbare : Bare s → i ∈ s.interruptsDb := by
    intro hs
    obtain ⟨⟨-, -, hnodes, hpackages, hcaches, hcpus⟩, -, -, hnil⟩ := hs
    simp [State.allLists, State.topology, hnodes, hpackages, hcaches, hcpus, hnil] at hi
  exact h.elim hbare hbuilt hlive

/-- The irqs that are balanced stand in the list that their `assigned_obj` names and nowhere else, and
the others nowhere. -/
structure State.Filed (s : State) : Prop where
  count : ∀ i ∈ s.live, s.allLists.count i = 1
  mem_interrupts : ∀ i ∈ s.live, ∀ o ∈ s.topology,
    i ∈ (s.objs o).interrupts ↔ (s.irqs i).assignedObj = some o
  mem_rebalance : ∀ i ∈ s.live, i ∈ s.rebalanceIrqList ↔ (s.irqs i).assignedObj = none
  assigned_mem : ∀ i ∈ s.live, ∀ o, (s.irqs i).assignedObj = some o → o ∈ s.topology
  not_mem_none : ∀ i ∈ s.interruptsDb, (s.irqs i).level = .none → i ∉ s.allLists
  not_mem_banned : ∀ i ∈ s.bannedIrqs, i ∉ s.allLists

theorem Live.filed (h : Live s) : s.Filed := by
  have hnodup : (none :: s.topology.map some).Nodup := by
    refine List.nodup_cons.2 ⟨by simp, h.topo.topology_nodup.map fun o o' e => Option.some.inj e⟩
  have hnot : ∀ i, i ∉ s.live → i ∉ s.allLists := by
    intro i hi
    rw [allLists_eq]
    exact h.bins.not_mem_flatMap (fun a ha => (mem_cons_topology a).1 ha) hi
  refine ⟨fun i hi => ?_, fun i hi o ho => ?_, fun i hi => ?_, fun i hi o ho => ?_, fun i _ hl => ?_,
    fun i hi => ?_⟩
  · rw [allLists_eq]
    exact h.bins.count_eq_one hnodup mem_cons_topology hi
  · exact (h.mem_slot (some_mem_slots.2 ho)).trans (and_iff_right hi)
  · exact (h.mem_slot (none_mem_slots s)).trans (and_iff_right hi)
  · have hhome := h.bins.home_mem i hi
    rw [show s.home i = some o from ho] at hhome
    exact some_mem_slots.1 hhome
  · exact hnot i fun hm => hm.2 hl
  · refine hnot i fun hm => ?_
    have hnd : s.known.Nodup := List.Nodup.of_map _ h.db.number_nodup
    exact List.disjoint_of_nodup_append hnd hm.1 hi

/-- **In every run, from the first filing on, every irq is in the list that its `assigned_obj` names,
and every callback that follows `assigned_obj` finds it there.** -/
theorem irqs_filed {pc : Pc} (h : Reach anyStep pc s) :
    (pc.phase = .live → s.Filed) ∧
    (pc = .migration → ∀ c ∈ updateMigrationStatusCalls s, c.2.Followable c.1) ∧
    (pc = .forceRebalance ∨ pc = .rescanForceRebalance →
      ∀ c ∈ forceRebalanceCalls s, (c.2.irqs c.1).assignedObj = none) := by
  refine ⟨fun hpc => (h.live hpc).filed, ?_, ?_⟩
  · rintro rfl
    exact updateMigrationStatusCalls_followable (h.live rfl)
  · rintro (rfl | rfl) <;> exact forceRebalanceCalls_unassigned h.holds

/-- The second cycle on two cpus. -/
theorem irqs_filed_twoCpus : ∃ s,
    execs (List.replicate 18 twoCpusEnv) (.start, State.initial {} fun _ => 0) =
      some (.migration, s) ∧
    s.interruptsDb.length = 1 ∧ s.Filed ∧ ∀ c ∈ updateMigrationStatusCalls s, c.2.Followable c.1 := by
  have hrun : (execs (List.replicate 18 twoCpusEnv) (.start, State.initial {} fun _ => 0)).map
      (fun r => (r.1, r.2.interruptsDb.length)) = some (.migration, 1) := by decide +kernel
  obtain ⟨⟨pc, s⟩, hr, e⟩ := Option.map_eq_some_iff.1 hrun
  obtain ⟨rfl, hlen⟩ := Prod.mk.inj e
  obtain ⟨hfiled, hcalls, -⟩ := irqs_filed ((Reach.init {} (fun _ => 0) rfl).execs_any hr)
  exact ⟨s, hr, hlen, hfiled rfl, hcalls rfl⟩

end IrqBalance
