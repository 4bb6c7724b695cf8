import IrqBalance.Descent
import IrqBalance.Main

/-!
# Runs of the main loop

A program point belongs to one of four phases (`Pc.phase`): there is no tree and no database; both have
been built; the irqs are filed in bins; the program has ended. `exec_stmt` sorts the statements of
`main` by what they do to the state, and `Reach.live_inv` is the resulting rule for invariants of the
third phase.
-/

namespace IrqBalance

variable {s s' : State} {i : IrqId} {o : ObjId}

/-! ### Building -/

/-- Before `build_object_tree`: there is no tree and no database. -/
structure Bare (s : State) : Prop where
  treeless : s.Treeless
  interruptsDb : s.interruptsDb = []
  bannedIrqs : s.bannedIrqs = []
  rebalanceIrqList : s.rebalanceIrqList = []

/-- After `build_object_tree`: no irq is anywhere, and no cpu sleeps. -/
structure Built (s : State) : Prop where
  topo : TopoWf s
  db : DbWf s
  rebalanceIrqList : s.rebalanceIrqList = []
  interrupts : ∀ o ∈ s.topology, (s.objs o).interrupts = []
  isNew : ∀ i ∈ s.interruptsDb, (s.irqs i).IsNew
  awake : ∀ o ∈ s.topology, (s.objs o).powersaveMode = false

/-- The part of the state that the tree is made of. -/
def State.treePart (s : State) : State :=
  { s with
    irqs := fun _ => {}, nextIrq := 0, interruptsDb := [], bannedIrqs := [], rebalanceIrqList := []
    needRescan := false, cycleCount := 0, smpAffinity := fun _ => 0 }

theorem isObj_treePart {t : ObjType} : s.treePart.IsObj t o ↔ s.IsObj t o :=
  ⟨fun h => ⟨h.lt, h.objType, h.banned⟩, fun h => ⟨h.lt, h.objType, h.banned⟩⟩

theorem topoWf_treePart : TopoWf s.treePart ↔ TopoWf s :=
  ⟨fun h => { h with
      isPackage := fun p hp => isObj_treePart.1 (h.isPackage p hp)
      isCache := fun c hc => isObj_treePart.1 (h.isCache c hc)
      isCpu := fun k hk => isObj_treePart.1 (h.isCpu k hk) },
    fun h => { h with
      isPackage := fun p hp => isObj_treePart.2 (h.isPackage p hp)
      isCache := fun c hc => isObj_treePart.2 (h.isCache c hc)
      isCpu := fun k hk => isObj_treePart.2 (h.isCpu k hk) }⟩

theorem treePart_of_sansIrqs (e : s'.sansIrqs = s.sansIrqs) : s'.treePart = s.treePart :=
  show s'.sansIrqs.treePart = s.sansIrqs.treePart by rw [e]

/-- **`build_object_tree` builds the tree and the database.** -/
theorem Bare.build (h : Bare s) {env : Env} (hb : buildObjectTree env s = some s') : Built s' := by
  obtain ⟨s₁, h₁, hb⟩ := Option.bind_eq_some_iff.1 hb
  obtain ⟨hopts, -, -, G, -, htree⟩ := h.treeless.parseCpuTree h₁
  obtain ⟨tmpIrqs, -, hdb, hsans, -⟩ := rebuildIrqDb_place hb
  have hpart : s'.treePart = s₁.treePart :=
    (treePart_of_sansIrqs hsans).trans (rfl : (freeIrqDb s₁).treePart = s₁.treePart)
  have hobjs : s'.objs = s₁.objs := show s'.treePart.objs = s₁.treePart.objs by rw [hpart]
  have htopology : s'.topology = s₁.topology :=
    show s'.treePart.topology = s₁.treePart.topology by rw [hpart]
  have htopo : TopoWf s' := by
    rw [← topoWf_treePart, hpart, topoWf_treePart]
    exact htree.topoWf
  refine ⟨htopo, ⟨hdb.number_nodup, fun i hi => hdb.numaNode i hi htopo.numaAvail⟩, ?_, ?_, ?_, ?_⟩
  · exact show s'.sansIrqs.rebalanceIrqList = [] by rw [hsans]; rfl
  · intro o ho
    rw [htopology] at ho
    rw [hobjs]
    exact htree.interrupts ho
  · exact fun i hi => hdb.isNew i (List.mem_append_left _ hi)
  · intro o ho
    rw [htopology] at ho
    rw [hobjs]
    exact htree.awake ho

/-! ### Filing the irqs -/

/-- Those of some irqs that take part in balancing. -/
def State.balanced (s : State) (l : List IrqId) : List IrqId :=
  l.filter fun i => (s.irqs i).level ≠ .none

/-- Append the irqs of `l` that take part in balancing to `rebalance_irq_list`. -/
def State.file (s : State) (l : List IrqId) : State :=
  { s with rebalanceIrqList := s.rebalanceIrqList ++ s.balanced l }

/-- On an irq that is nowhere, `force_rebalance_irq` appends it to `rebalance_irq_list`. -/
theorem forceRebalanceIrq_new (hi : (s.irqs i).assignedObj = none) :
    forceRebalanceIrq i s = some (s.file [i]) := by
  have hirqs : (fun j => if j = i then { s.irqs j with assignedObj := none } else s.irqs j) =
      s.irqs := by
    funext j
    split_ifs with hj
    · subst hj; rw [← hi]
    · rfl
  unfold forceRebalanceIrq State.file State.balanced
  by_cases hl : (s.irqs i).level = .none
  · simp [hl]
  · simp [hl, hi, State.modIrq, hirqs]

theorem foldlM_forceRebalanceIrq (l : List IrqId) (hl : ∀ i ∈ l, (s.irqs i).assignedObj = none) :
    l.foldlM (fun s i => forceRebalanceIrq i s) s = some (s.file l) := by
  induction l generalizing s with
  | nil => simp [State.file, State.balanced]
  | cons i l ih =>
    rw [List.foldlM_cons, forceRebalanceIrq_new (hl i List.mem_cons_self)]
    have htail : l.foldlM (fun s i => forceRebalanceIrq i s) (s.file [i]) =
        some ((s.file [i]).file l) := ih fun j hj => hl j (List.mem_cons_of_mem i hj)
    rw [Option.bind_eq_bind, Option.bind_some, htail]
    simp only [State.file, State.balanced, List.filter_cons, List.filter_nil, List.append_assoc]
    split_ifs <;> rfl

theorem forceRebalanceIrq_interruptsDb (h : forceRebalanceIrq i s = some s') :
    s'.interruptsDb = s.interruptsDb := by
  have hset : ∀ (u : State) (l : List IrqId) (a : Option ObjId),
      (u.setSlot l a).interruptsDb = u.interruptsDb := by
    intro u l a
    cases a <;> rfl
  unfold forceRebalanceIrq at h
  split_ifs at h
  · cases h; rfl
  · cases h
    cases hobj : (s.irqs i).assignedObj with
    | none => rfl
    | some o =>
      change (migrateIrq (some o) none i s).interruptsDb = s.interruptsDb
      unfold migrateIrq
      dsimp only
      split
      · rfl
      · exact (hset _ _ _).trans (hset _ _ _)

/-- **`force_rebalance` files the irqs in `rebalance_irq_list`.** -/
theorem Built.forceRebalance_eq (h : Built s) : forceRebalance s = some (s.file s.interruptsDb) := by
  have hwalk : forceRebalance s = Loops.walk State.interruptsDb forceRebalanceIrq s := by
    unfold forceRebalance forEachIrq forEachIrqOn
    simp
  have hunlinks : Loops.UnlinksSelf (fun t => t.interruptsDb = s.interruptsDb) State.interruptsDb
      forceRebalanceIrq := fun i t u ht _ hu =>
    ⟨(forceRebalanceIrq_interruptsDb hu).trans ht, Or.inl (forceRebalanceIrq_interruptsDb hu)⟩
  rw [hwalk, Loops.walk_eq_foldlM (fun t ht => ht ▸ h.db.interruptsDb_nodup) hunlinks rfl]
  exact foldlM_forceRebalanceIrq _ fun i hi => (h.isNew i hi).assignedObj

theorem Built.force (h : Built s) (hf : forceRebalance s = some s') :
    s' = s.file s.interruptsDb :=
  Option.some.inj (hf.symm.trans h.forceRebalance_eq)

/-- **Then every balanced irq is in its bin.** -/
theorem Built.live (h : Built s) : Live (s.file s.interruptsDb) where
  topo := by
    have e : (s.file s.interruptsDb).static = s.static := rfl
    exact h.topo.of_static e
  db := by
    have e : (s.file s.interruptsDb).static = s.static := rfl
    exact h.db.of_static e
  bins := by
    have hmem : ∀ i, i ∈ (s.file s.interruptsDb).slot none ↔ i ∈ s.live := by
      intro i
      simp [State.slot, State.file, h.rebalanceIrqList, State.balanced, State.live]
    have hhome : ∀ i ∈ s.live, s.home i = none := fun i hi => (h.isNew i hi.1).assignedObj
    constructor
    · intro a ha
      cases a with
      | none =>
        simp only [State.slot, State.file, h.rebalanceIrqList, List.nil_append]
        exact h.db.interruptsDb_nodup.filter _
      | some o =>
        have hnil : (s.file s.interruptsDb).slot (some o) = [] := h.interrupts o (ha o rfl)
        rw [hnil]
        exact List.nodup_nil
    · intro a ha i
      cases a with
      | none => rw [hmem]; exact ⟨fun hi => ⟨hi, hhome i hi⟩, fun hi => hi.1⟩
      | some o =>
        have hnil : (s.file s.interruptsDb).slot (some o) = [] := h.interrupts o (ha o rfl)
        rw [hnil]
        refine ⟨fun hi => absurd hi List.not_mem_nil, fun hi => ?_⟩
        have hsome : s.home i = some o := hi.2
        rw [hhome i hi.1] at hsome
        cases hsome
    · intro i hi
      have hnone : (s.file s.interruptsDb).home i = none := hhome i hi
      rw [hnone]
      exact none_mem_slots _
  unplaced := fun i hi _ => (h.isNew i hi).assignedObj

/-! ### Activating -/

/-- The part of the state that `activate_mappings` leaves alone. -/
def State.unactivated (s : State) : State :=
  { s with
    irqs := fun i => { s.irqs i with moved := false, warned := false }
    smpAffinity := fun _ => 0 }

theorem modIrq_unactivated {f : IrqInfo → IrqInfo}
    (hf : ∀ info, { f info with moved := false, warned := false } =
      ({ info with moved := false, warned := false } : IrqInfo)) (s : State) (i : IrqId) :
    (s.modIrq i f).unactivated = s.unactivated := by
  have h : ∀ j, ({ (s.modIrq i f).irqs j with moved := false, warned := false } : IrqInfo) =
      { s.irqs j with moved := false, warned := false } := by
    intro j
    rw [State.modIrq_irqs]
    split_ifs
    · exact hf _
    · rfl
  simp only [State.unactivated, h]
  rfl

theorem activateMapping_unactivated {env : ProcIrq} (h : activateMapping env i s = some s') :
    s'.unactivated = s.unactivated := by
  have hwarned : ∀ b, (s.modIrq i fun info => { info with warned := info.warned || b }).unactivated =
      s.unactivated := fun b => modIrq_unactivated (by intro _; rfl) s i
  unfold activateMapping at h
  dsimp only at h
  split at h
  · cases h
    exact hwarned _
  · cases h
    refine (modIrq_unactivated (by intro _; rfl) _ i).trans ?_
    exact hwarned _

theorem activateMappings_unactivated {env : ProcIrq} (h : activateMappings env s = some s') :
    s'.unactivated = s.unactivated :=
  forEachIrq_view State.unactivated (fun _ _ _ h => activateMapping_unactivated h) h

theorem static_unactivated (s : State) : s.unactivated.static = s.static := rfl

theorem static_of_unactivated (e : s'.unactivated = s.unactivated) : s'.static = s.static := by
  rw [← static_unactivated, e, static_unactivated]

theorem slot_of_unactivated (e : s'.unactivated = s.unactivated) : s'.slot = s.slot := by
  have hslot : ∀ t : State, t.unactivated.slot = t.slot := by
    intro t
    funext a
    cases a <;> rfl
  rw [← hslot, e, hslot]

theorem home_of_unactivated (e : s'.unactivated = s.unactivated) : s'.home = s.home :=
  show s'.unactivated.home = s.unactivated.home by rw [e]

theorem Live.of_unactivated (h : Live s) (e : s'.unactivated = s.unactivated) : Live s' :=
  h.congr (static_of_unactivated e) (slot_of_unactivated e) (home_of_unactivated e)

/-! ### The statements of `main` -/

/-- The four phases. -/
inductive Phase
  | bare
  | built
  | live
  | ended
deriving DecidableEq

/-- The phase in front of a statement. -/
def Pc.phase : Pc → Phase
  | .start => .bare
  | .buildTree => .bare
  | .forceRebalance => .built
  | .rescanForceRebalance => .built
  | .done => .ended
  | _ => .live

/-- The state without loads, counters and the two variables of the main loop. -/
def State.quiet (s : State) : State := { s.noStats with cycleCount := 0 }

/-- What a statement of `main` does. -/
inductive Stmt (env : Env) : Pc → State → Pc → State → Prop
  | build {pc pc' : Pc} {s s' : State} (hpc : pc.phase = .bare)
      (hpc' : pc'.phase = .built ∧ (pc = .start → 2 ≤ s'.coreCount) ∨ pc'.phase = .ended)
      (h : buildObjectTree env s = some s') : Stmt env pc s pc' s'
  | force {pc pc' : Pc} {s s' : State} (hpc : pc.phase = .built) (hpc' : pc'.phase = .live)
      (h : forceRebalance s = some s') : Stmt env pc s pc' s'
  | quiet {pc pc' : Pc} {s s' : State} (hpc : pc.phase = .live)
      (hpc' : pc'.phase = .live ∨ pc'.phase = .ended) (h : s'.quiet = s.quiet) : Stmt env pc s pc' s'
  | free {s : State} : Stmt env .freeTree s .buildTree (freeObjectTree s)
  | migrate {s s' : State} (h : updateMigrationStatus s = some s') :
      Stmt env .migration s .placement s'
  | place {s s' : State} (h : calculatePlacement s = some s') : Stmt env .placement s .activation s'
  | activate {s s' : State} (h : activateMappings env.procIrq s = some s') :
      Stmt env .activation s .countCycle s'

theorem quiet_of_noStats (e : s'.noStats = s.noStats) : s'.quiet = s.quiet := by
  rw [State.quiet, e, State.quiet]

/-- A statement that may fail and goes on at one place. -/
theorem map_goto {pc' q : Pc} {r : Option State} (h : r.map (q, ·) = some (pc', s')) :
    pc' = q ∧ r = some s' := by
  obtain ⟨u, hu, e⟩ := Option.map_eq_some_iff.1 h
  cases e
  exact ⟨rfl, hu⟩

/-- The statements that call `parse_proc_interrupts`. -/
def Pc.readsInterrupts : Pc → Bool
  | .parseInterrupts | .loopInterrupts | .rescanInterrupts | .settleInterrupts => true
  | _ => false

theorem exec_readsInterrupts {env : Env} {pc pc' : Pc} (hread : pc.readsInterrupts = true)
    (h : exec env pc s = some (pc', s')) : s' = parseProcInterrupts env.procInterrupts s := by
  cases pc with
  | parseInterrupts | loopInterrupts | rescanInterrupts | settleInterrupts =>
    cases h
    rfl
  | _ => cases hread

/-- The statements that call `parse_proc_stat`. -/
def Pc.readsStat : Pc → Bool
  | .parseStat | .loopStat | .rescanStat | .settleStat => true
  | _ => false

theorem exec_readsStat {env : Env} {pc pc' : Pc} (hpc : pc.readsStat = true)
    (h : exec env pc s = some (pc', s')) : parseProcStat env.procStat s = some s' := by
  cases pc with
  | parseStat | loopStat | rescanStat | settleStat => exact (map_goto h).2
  | _ => cases hpc

/-- **Every statement is of one of these kinds.** -/
theorem exec_stmt {env : Env} {pc pc' : Pc} (h : exec env pc s = some (pc', s')) :
    Stmt env pc s pc' s' := by
  cases pc with
  | start =>
    unfold exec at h
    obtain ⟨u, hu, h⟩ := Option.bind_eq_some_iff.1 h
    split_ifs at h with hcount
    · cases h; exact .build rfl (Or.inr rfl) hu
    · cases h; exact .build rfl (Or.inl ⟨rfl, fun _ => by omega⟩) hu
  | buildTree =>
    unfold exec at h
    obtain ⟨rfl, hu⟩ := map_goto h
    exact .build rfl (Or.inl ⟨rfl, fun e => by cases e⟩) hu
  | forceRebalance | rescanForceRebalance =>
    unfold exec at h
    obtain ⟨rfl, hu⟩ := map_goto h
    exact .force rfl rfl hu
  | loopClearStats | rescanClearStats | settleClearStats =>
    unfold exec at h
    obtain ⟨rfl, hu⟩ := map_goto h
    exact .quiet rfl (Or.inl rfl) (quiet_of_noStats (noStats_of_noLoads (clearWorkStats_noLoads hu)))
  | parseStat | loopStat | rescanStat | settleStat =>
    unfold exec at h
    obtain ⟨rfl, hu⟩ := map_goto h
    exact .quiet rfl (Or.inl rfl) (quiet_of_noStats (noStats_of_noLoads (parseProcStat_noLoads hu)))
  | parseInterrupts | loopInterrupts | rescanInterrupts | settleInterrupts =>
    cases h
    exact .quiet rfl (Or.inl rfl) (quiet_of_noStats (parseProcInterrupts_noStats _ s))
  | loop =>
    cases h
    refine .quiet rfl ?_ rfl
    split_ifs
    · exact Or.inl rfl
    · exact Or.inr rfl
  | rescanTest =>
    cases h
    refine .quiet rfl (Or.inl ?_) rfl
    split_ifs <;> rfl
  | resetNeedRescan | resetCycleCount | countCycle =>
    cases h
    exact .quiet rfl (Or.inl rfl) rfl
  | freeTree => cases h; exact .free
  | migration =>
    unfold exec at h
    dsimp only at h
    split_ifs at h
    · cases h; exact .quiet rfl (Or.inl rfl) rfl
    · obtain ⟨rfl, hu⟩ := map_goto h
      exact .migrate hu
  | placement =>
    unfold exec at h
    obtain ⟨rfl, hu⟩ := map_goto h
    exact .place hu
  | activation =>
    unfold exec at h
    obtain ⟨rfl, hu⟩ := map_goto h
    exact .activate hu
  | done => cases h

/-! ### Invariants of runs -/

theorem static_quiet (s : State) : s.quiet.static = s.static := rfl

theorem static_of_quiet (e : s'.quiet = s.quiet) : s'.static = s.static := by
  rw [← static_quiet, e, static_quiet]

theorem slot_of_quiet (e : s'.quiet = s.quiet) : s'.slot = s.slot := by
  have hslot : ∀ t : State, t.quiet.slot = t.slot := by
    intro t
    funext a
    cases a <;> rfl
  rw [← hslot, e, hslot]

theorem home_of_quiet (e : s'.quiet = s.quiet) : s'.home = s.home :=
  show s'.quiet.home = s.quiet.home by rw [e]

theorem Live.of_quiet (h : Live s) (e : s'.quiet = s.quiet) : Live s' :=
  h.congr (static_of_quiet e) (slot_of_quiet e) (home_of_quiet e)

theorem forceRescan_quiet (s : State) : (forceRescan s).quiet = s.quiet := by
  unfold forceRescan
  split_ifs <;> rfl

theorem forceRescan_bare (h : Bare s) : Bare (forceRescan s) := by
  unfold forceRescan
  split_ifs
  · exact h
  · exact { h with treeless := { h.treeless with } }

theorem forceRescan_built (h : Built s) : Built (forceRescan s) := by
  have e : (forceRescan s).static = s.static := static_of_quiet (forceRescan_quiet s)
  refine ⟨h.topo.of_static e, h.db.of_static e, ?_, ?_, ?_, ?_⟩ <;> unfold forceRescan <;> split_ifs
  exacts [h.rebalanceIrqList, h.rebalanceIrqList, h.interrupts, h.interrupts, h.isNew, h.isNew,
    h.awake, h.awake]

theorem bare_initial {opts : Options} {smpAffinity : ℤ → Cpumask} (h : opts.numaAvail = false) :
    Bare (State.initial opts smpAffinity) where
  treeless :=
    { numaAvail := h
      node_lt := Nat.zero_lt_one
      numaNodes := rfl
      packages := rfl
      cacheDomains := rfl
      cpus := rfl }
  interruptsDb := rfl
  bannedIrqs := rfl
  rebalanceIrqList := rfl

/-- `free_object_tree` leaves no tree and no database. -/
theorem Live.free (h : Live s) : Bare (freeObjectTree s) where
  treeless :=
    { numaAvail := h.topo.numaAvail
      node_lt := h.topo.node_lt
      numaNodes := rfl
      packages := rfl
      cacheDomains := rfl
      cpus := rfl }
  interruptsDb := rfl
  bannedIrqs := rfl
  rebalanceIrqList := rfl

/-- What holds at each program point. -/
def Phase.Holds (s : State) : Phase → Prop
  | .bare => Bare s
  | .built => Built s
  | .live => Live s
  | .ended => Built s ∨ Live s

/-- One statement. -/
theorem Stmt.holds {env : Env} {pc pc' : Pc} (h : Stmt env pc s pc' s') (hs : pc.phase.Holds s) :
    pc'.phase.Holds s' := by
  cases h with
  | build hpc hpc' h =>
    rw [hpc] at hs
    rcases hpc' with ⟨hpc', -⟩ | hpc' <;> rw [hpc']
    · exact Bare.build hs h
    · exact Or.inl (Bare.build hs h)
  | force hpc hpc' h =>
    rw [hpc] at hs
    rw [hpc', Built.force hs h]
    exact Built.live hs
  | quiet hpc hpc' h =>
    rw [hpc] at hs
    rcases hpc' with hpc' | hpc' <;> rw [hpc']
    · exact Live.of_quiet hs h
    · exact Or.inr (Live.of_quiet hs h)
  | free => exact Live.free hs
  | migrate h => exact (updateMigrationStatus_rearrange hs h).live hs
  | place h => exact (calculatePlacement_rearrange hs h).live hs
  | activate h => exact Live.of_unactivated hs (activateMappings_unactivated h)

theorem forceRescan_holds {p : Phase} (h : p.Holds s) : p.Holds (forceRescan s) := by
  cases p with
  | bare => exact forceRescan_bare h
  | built => exact forceRescan_built h
  | live => exact Live.of_quiet h (forceRescan_quiet s)
  | ended => exact h.imp forceRescan_built fun hl => hl.of_quiet (forceRescan_quiet s)

/-- **In every run each phase has its invariant.** -/
theorem Reach.holds {A : Env → Pc → State → Prop} {pc : Pc} (h : Reach A pc s) :
    pc.phase.Holds s := by
  induction h with
  | init opts smpAffinity h => exact bare_initial h
  | step _ _ hexec ih => exact (exec_stmt hexec).holds ih
  | hup _ _ ih => exact forceRescan_holds ih

theorem Reach.live {A : Env → Pc → State → Prop} {pc : Pc} (h : Reach A pc s)
    (hpc : pc.phase = .live) : Live s := by
  have hs := h.holds
  rw [hpc] at hs
  exact hs

/-- In every run a state is one of three kinds. -/
theorem Reach.elim {A : Env → Pc → State → Prop} {P : Prop} {pc : Pc} (h : Reach A pc s)
    (hbare : Bare s → P) (hbuilt : Built s → P) (hlive : Live s → P) : P := by
  have hs := h.holds
  cases hpc : pc.phase with
  | bare => rw [hpc] at hs; exact hbare hs
  | built => rw [hpc] at hs; exact hbuilt hs
  | live => rw [hpc] at hs; exact hlive hs
  | ended => rw [hpc] at hs; exact hs.elim hbuilt hlive

/-- What holds in every run may be assumed of the states in which statements start. -/
theorem Reach.and {A : Env → Pc → State → Prop} (Q : Pc → State → Prop)
    (hQ : ∀ pc s, Reach A pc s → Q pc s) {pc : Pc} (h : Reach A pc s) :
    Reach (fun env pc s => A env pc s ∧ Q pc s) pc s := by
  induction h with
  | init opts smpAffinity h => exact .init opts smpAffinity h
  | step hreach hA hexec ih => exact ih.step ⟨hA, hQ _ _ hreach⟩ hexec
  | hup _ hpc ih => exact ih.hup hpc

/-- Execute statements one after the other, each with its own snapshot of the files. -/
def execs (envs : List Env) (p : Pc × State) : Option (Pc × State) :=
  envs.foldlM (fun p env => exec env p.1 p.2) p

/-- Executing statements that start in states that satisfy `A`. What `A` asks at the program point `q` need
not be known if the run does not pass there. -/
theorem Reach.execs {A : Env → Pc → State → Prop} (q : Pc) {envs : List Env}
    (hA : ∀ env ∈ envs, ∀ pc s, pc ≠ q → A env pc s) {pc : Pc} (h : Reach A pc s)
    (hq : ∀ n < envs.length, (IrqBalance.execs (envs.take n) (pc, s)).map Prod.fst ≠ some q)
    {r : Pc × State} (hr : IrqBalance.execs envs (pc, s) = some r) : Reach A r.1 r.2 := by
  induction envs generalizing pc s with
  | nil => cases hr; exact h
  | cons env envs ih =>
    unfold IrqBalance.execs at hr
    rw [List.foldlM_cons] at hr
    obtain ⟨⟨pc', s'⟩, hexec, hr⟩ := Option.bind_eq_some_iff.1 hr
    have hpc : pc ≠ q := fun e => hq 0 (Nat.zero_lt_succ _) (by simp [IrqBalance.execs, e])
    refine ih (fun env' henv' => hA env' (List.mem_cons_of_mem env henv'))
      (h.step (hA env List.mem_cons_self pc s hpc) hexec) (fun n hn => ?_) hr
    have htake : IrqBalance.execs ((env :: envs).take (n + 1)) (pc, s) =
        IrqBalance.execs (envs.take n) (pc', s') := by
      unfold IrqBalance.execs
      rw [List.take_succ_cons, List.foldlM_cons, hexec]
      rfl
    rw [← htake]
    exact hq (n + 1) (Nat.succ_lt_succ hn)

theorem Reach.exec_any {env : Env} {pc pc' : Pc} (h : Reach anyStep pc s)
    (hexec : exec env pc s = some (pc', s')) : Reach anyStep pc' s' :=
  h.step (trivial : anyStep env pc s) hexec

theorem Reach.execs_any {envs : List Env} {pc : Pc} (h : Reach anyStep pc s) {r : Pc × State}
    (hr : IrqBalance.execs envs (pc, s) = some r) : Reach anyStep r.1 r.2 :=
  Loops.foldlM_inv (fun r : Pc × State => Reach anyStep r.1 r.2)
    (fun _ _ _ _ ht hexec => ht.exec_any hexec) h hr

/-- A run goes on from `p` with statements at the program points `K`. -/
inductive Along (K : Pc → Prop) (p : Pc × State) : Pc → State → Prop
  | refl : Along K p p.1 p.2
  | step {env : Env} {pc pc' : Pc} {s s' : State} : Along K p pc s → K pc →
      exec env pc s = some (pc', s') → Along K p pc' s'
  | hup {pc : Pc} {s : State} : Along K p pc s → pc ≠ .start → Along K p pc (forceRescan s)

theorem Along.reach {K : Pc → Prop} {p : Pc × State} {pc : Pc} (h : Along K p pc s)
    (hp : Reach anyStep p.1 p.2) : Reach anyStep pc s := by
  induction h with
  | refl => exact hp
  | step _ _ hexec ih => exact ih.exec_any hexec
  | hup _ hpc ih => exact ih.hup hpc

theorem Along.execs {K : Pc → Prop} {envs : List Env} {p r : Pc × State}
    (hK : ∀ n < envs.length, ∀ q ∈ IrqBalance.execs (envs.take n) p, K q.1)
    (hr : IrqBalance.execs envs p = some r) : Along K p r.1 r.2 := by
  induction envs using List.reverseRecOn generalizing r with
  | nil =>
    cases hr
    exact .refl
  | append_singleton envs env ih =>
    unfold IrqBalance.execs at hr
    rw [List.foldlM_append] at hr
    obtain ⟨q, hq, hr⟩ := Option.bind_eq_some_iff.1 hr
    rw [Loops.foldlM_singleton] at hr
    refine (ih (fun n hn q' hq' => hK n ?_ q' ?_) hq).step (hK envs.length ?_ q ?_) hr
    · rw [List.length_append]
      exact Nat.lt_add_right _ hn
    · rwa [List.take_append_of_le_length hn.le]
    · simp
    · rw [List.take_left]
      exact hq

/-- A machine with two cpus and no files about caches and packages. -/
def twoCpus : CpuSysfs where
  cpuDir := some [{ dName := "cpu0".toList }, { dName := "cpu1".toList }]

/-- The machine, with one irq that no PCI device has. -/
def twoCpusEnv : Env where
  cpuSysfs := twoCpus
  pciDir := some []
  procInterrupts := some "   CPU0 CPU1\n 10: 5 6 GIC eth0\n".toList
  procStat := some ("cpu  1 2 3 4 5 6 7 8\ncpu0 1 2 3 4 5 6 7 8\n".toList ++
    "cpu1 1 2 3 4 5 6 7 8\n".toList)

/-- **Invariants of the third phase**: what holds when the irqs have been filed, and is kept by the
statements that only read files and by the three functions that balance, place and activate, holds in
every run. -/
theorem Reach.live_inv {A : Env → Pc → State → Prop} (J : State → Prop)
    (hforce : ∀ s, Built s → J (s.file s.interruptsDb))
    (hquiet : ∀ s s', Live s → J s → s'.quiet = s.quiet → J s')
    (hmigrate : ∀ env s s', A env .migration s → Live s → J s →
      updateMigrationStatus s = some s' → J s')
    (hplace : ∀ env s s', A env .placement s → Live s → J s → calculatePlacement s = some s' → J s')
    (hactivate : ∀ env s s', A env .activation s → Live s → J s →
      activateMappings env.procIrq s = some s' → J s')
    {pc : Pc} (h : Reach A pc s) (hpc : pc.phase = .live) : J s := by
  induction h with
  | init => cases hpc
  | @step env pc pc' s s' hreach hA hexec ih =>
    cases exec_stmt hexec with
    | build _ hpc' =>
      rcases hpc' with ⟨hpc', -⟩ | hpc' <;> rw [hpc'] at hpc <;> cases hpc
    | force hbuilt _ hf =>
      have hs := hreach.holds
      rw [hbuilt] at hs
      rw [Built.force hs hf]
      exact hforce s hs
    | quiet hlive _ hq => exact hquiet s s' (hreach.live hlive) (ih hlive) hq
    | free => cases hpc
    | migrate hm => exact hmigrate env s s' hA (hreach.live rfl) (ih rfl) hm
    | place hp => exact hplace env s s' hA (hreach.live rfl) (ih rfl) hp
    | activate ha => exact hactivate env s s' hA (hreach.live rfl) (ih rfl) ha
  | @hup pc s hreach _ ih =>
    exact hquiet s _ (hreach.live hpc) (ih hpc) (forceRescan_quiet s)

/-- **Invariants of the third phase that look at the program point**: what holds behind the filing of the
irqs and is kept by every statement of the phase holds in every run. -/
theorem Reach.live_step {A : Env → Pc → State → Prop} (J : Pc → State → Prop)
    (hforce : ∀ s, Built s → J .parseInterrupts (s.file s.interruptsDb) ∧
      J .rescanInterrupts (s.file s.interruptsDb))
    (hstep : ∀ env pc pc' s s', Reach A pc s → pc.phase = .live → J pc s →
      exec env pc s = some (pc', s') → J pc' s')
    (hhup : ∀ pc s, J pc s → J pc (forceRescan s))
    {pc : Pc} (h : Reach A pc s) (hpc : pc.phase = .live) : J pc s := by
  induction h with
  | init => cases hpc
  | @step env pc pc' s s' hreach _ hexec ih =>
    have hs := hreach.holds
    cases hphase : pc.phase with
    | live => exact hstep env pc pc' s s' hreach hphase (ih hphase) hexec
    | bare =>
      cases exec_stmt hexec with
      | build _ hpc' => rcases hpc' with ⟨hpc', -⟩ | hpc' <;> rw [hpc'] at hpc <;> cases hpc
      | force hbuilt => rw [hbuilt] at hphase; cases hphase
      | quiet hlive => rw [hlive] at hphase; cases hphase
      | free => cases hpc
      | migrate | place | activate => cases hphase
    | built =>
      rw [hphase] at hs
      cases pc with
      | forceRebalance =>
        obtain ⟨rfl, hf⟩ := map_goto hexec
        rw [Built.force hs hf]
        exact (hforce s hs).1
      | rescanForceRebalance =>
        obtain ⟨rfl, hf⟩ := map_goto hexec
        rw [Built.force hs hf]
        exact (hforce s hs).2
      | _ => cases hphase
    | ended =>
      cases pc with
      | done => cases hexec
      | _ => cases hphase
  | @hup pc s _ _ ih => exact hhup pc s (ih hpc)

/-- When the program has ended, the state is that of a fresh tree or of the main loop, but for loads and
counters. -/
theorem Reach.ended {A : Env → Pc → State → Prop} {pc : Pc} (h : Reach A pc s)
    (hpc : pc.phase = .ended) :
    Built s ∨ ∃ q t, Reach A q t ∧ q.phase = .live ∧ s.quiet = t.quiet := by
  induction h with
  | init => cases hpc
  | @step env pc pc' s s' hreach _ hexec ih =>
    cases exec_stmt hexec with
    | build hbare _ hb =>
      have hs := hreach.holds
      rw [hbare] at hs
      exact Or.inl (Bare.build hs hb)
    | force _ hlive _ => rw [hlive] at hpc; cases hpc
    | quiet hlive _ hq => exact Or.inr ⟨pc, s, hreach, hlive, hq⟩
    | free | migrate | place | activate => cases hpc
  | @hup pc s _ _ ih =>
    rcases ih hpc with hb | ⟨q, t, ht, hq, e⟩
    · exact Or.inl (forceRescan_built hb)
    · exact Or.inr ⟨q, t, ht, hq, (forceRescan_quiet s).trans e⟩

/-- **From the main loop to the whole run**: what holds without a tree, of a fresh tree and in the main loop,
and does not look at loads and counters, holds in every run. -/
theorem Reach.everywhere {A : Env → Pc → State → Prop} {Q : State → Prop} (hbare : ∀ s, Bare s → Q s)
    (hbuilt : ∀ s, Built s → Q s) (hlive : ∀ pc s, Reach A pc s → pc.phase = .live → Q s)
    (hquiet : ∀ s s', Q s → s'.quiet = s.quiet → Q s') {pc : Pc} (h : Reach A pc s) : Q s := by
  have hs := h.holds
  cases hpc : pc.phase with
  | bare => rw [hpc] at hs; exact hbare s hs
  | built => rw [hpc] at hs; exact hbuilt s hs
  | live => exact hlive pc s h hpc
  | ended =>
    rcases h.ended hpc with hb | ⟨q, t, ht, hq, e⟩
    · exact hbuilt s hb
    · exact hquiet t s (hlive q t ht hq) e

/-- **In every run only cpus are in powersave mode.** -/
theorem Reach.onlyCpusSleep {A : Env → Pc → State → Prop} {pc : Pc} (h : Reach A pc s)
    (hpc : pc.phase = .live) : OnlyCpusSleep s := by
  refine h.live_inv OnlyCpusSleep ?_ ?_ ?_ ?_ ?_ hpc
  · intro s hs o ho hpower
    have hawake : (s.objs o).powersaveMode = false := hs.awake o ho
    rw [show (s.objs o).powersaveMode = true from hpower] at hawake
    cases hawake
  · intro s s' _ hs e
    refine hs.congr (static_of_quiet e) fun o => ?_
    exact show (s'.quiet.objs o).powersaveMode = (s.quiet.objs o).powersaveMode by rw [e]
  · exact fun _ _ _ _ hlive hs hm => (updateMigrationStatus_rearrange hlive hm).onlyCpusSleep hs
  · exact fun _ _ _ _ hlive hs hp => (calculatePlacement_rearrange hlive hp).onlyCpusSleep hs
  · intro env s s' _ _ hs ha
    have e := activateMappings_unactivated ha
    refine hs.congr (static_of_unactivated e) fun o => ?_
    exact show (s'.unactivated.objs o).powersaveMode = (s.unactivated.objs o).powersaveMode by rw [e]

end IrqBalance
