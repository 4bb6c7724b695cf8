import IrqBalance.Idle
import IrqBalance.LastCpu
import IrqBalance.Lifecycle

/-!
# Powersave mode

`update_migration_status` changes the modes of the cpus in one place, behind the pass over the cpus. What it decides
there depends on the loads and modes at its start only (`powersave_decides`): the first cpu that is underloaded and
awake falls asleep, or all cpus wake up.

So at most one cpu falls asleep in a cycle, and none before the seventh (`asleep_le_cycles`).
-/

namespace IrqBalance

variable {s s' t : State} {o k : ObjId} {l : List ObjId} {pc pc' : Pc} {st info : LoadBalanceInfo}

/-- The modes of the objects. -/
def State.modes (s : State) (o : ObjId) : Bool := (s.objs o).powersaveMode

/-- The first cpu that could be put to sleep. -/
def State.drowsy (s : State) : Option ObjId := s.cpus.find? fun k => s.underloaded k && !s.modes k

/-- The decision of `update_migration_status`. -/
def State.modesAfter (s : State) : ObjId → Bool :=
  if s.opts.powerThresh ≠ ullongMax ∧ 5 < s.cycleCount then
    if s.cpus.any s.overloaded then
      if s.cpus.any s.modes then fun o => s.modes o && !decide (o ∈ s.cpus) else s.modes
    else if s.opts.powerThresh.toNat ≤ s.cpus.countP s.underloaded then
      s.drowsy.elim s.modes fun k => Function.update s.modes k true
    else s.modes
  else s.modes

/-! ### The proposal of the pass -/

/-- One object: it is proposed, if it is underloaded and awake and none is proposed yet. -/
theorem countObj_proposes (hon : s.opts.powerThresh ≠ ullongMax) (havg : info.avgLoad = st.avgLoad)
    (hstd : info.stdDeviation = st.stdDeviation) (o : ObjId) :
    (countObj s info o).powersave =
        info.powersave.or (if isUnder (s.objs o).load st && !s.modes o then some o else none) ∧
      (countObj s info o).numPowersave = info.numPowersave + if s.modes o then 1 else 0 := by
  rw [countObj_eq, isUnder_congr havg hstd, isOver_congr havg hstd]
  unfold State.modes
  generalize isUnder (s.objs o).load st = below
  generalize isOver (s.objs o).load st = above
  cases hmode : (s.objs o).powersaveMode <;> cases below <;> cases above <;> cases info.powersave <;>
    simp [hon]

theorem or_find?_cons (x : Option ObjId) (p : ObjId → Bool) (o : ObjId) (l : List ObjId) :
    (x.or (if p o then some o else none)).or (l.find? p) = x.or ((o :: l).find? p) := by
  rw [Option.or_assoc, List.find?_cons]
  cases p o <;> simp

theorem foldl_countObj_proposes (hon : s.opts.powerThresh ≠ ullongMax) (havg : info.avgLoad = st.avgLoad)
    (hstd : info.stdDeviation = st.stdDeviation) (l : List ObjId) :
    (l.foldl (countObj s) info).powersave =
        info.powersave.or (l.find? fun o => isUnder (s.objs o).load st && !s.modes o) ∧
      (l.foldl (countObj s) info).numPowersave = info.numPowersave + l.countP s.modes := by
  induction l generalizing info with
  | nil => simp
  | cons o l ih =>
    have hcounted := countObj_counted (s := s) havg hstd o
    obtain ⟨hproposed, hasleep⟩ := countObj_proposes hon havg hstd o
    obtain ⟨hproposed', hasleep'⟩ := ih hcounted.avgLoad hcounted.stdDeviation
    rw [List.foldl_cons]
    refine ⟨?_, ?_⟩
    · rw [hproposed', hproposed]
      exact or_find?_cons info.powersave (fun o => isUnder (s.objs o).load st && !s.modes o) o l
    · rw [hasleep', hasleep, List.countP_cons]
      omega

/-- **The pass over the cpus proposes the first that is underloaded and awake.** -/
theorem findOverloadedObjs_proposes {r : State × LoadBalanceInfo} (hon : s.opts.powerThresh ≠ ullongMax)
    (h : findOverloadedObjs s.cpus s = some r) :
    r.2.powersave = s.drowsy ∧ r.2.numPowersave = s.cpus.countP s.modes := by
  have hcounts := (findOverloadedObjs_counts h).2
  have hproposes := foldl_countObj_proposes hon
    (rfl : (loadStats s.cpus s).counts.avgLoad = (loadStats s.cpus s).avgLoad) rfl s.cpus
  rw [← hcounts] at hproposes
  have hzero := loadStats_counters s.cpus s
  simp only [LoadBalanceInfo.counters, Prod.mk.injEq] at hzero
  obtain ⟨-, -, hasleep, hnone⟩ := hzero
  obtain ⟨hp, hn⟩ := hproposes
  change r.2.powersave = (loadStats s.cpus s).powersave.or _ at hp
  change r.2.numPowersave = (loadStats s.cpus s).numPowersave + _ at hn
  rw [hnone, Option.none_or] at hp
  rw [hasleep, Nat.zero_add] at hn
  exact ⟨hp, hn⟩

/-! ### The decision -/

theorem modes_of_scores (e : s'.scores = s.scores) : s'.modes = s.modes :=
  funext fun o => powersaveMode_of_scores e o

theorem modes_modObj (s : State) (k : ObjId) (b : Bool) :
    (s.modObj k fun o => { o with powersaveMode := b }).modes = Function.update s.modes k b := by
  funext o
  unfold State.modes
  by_cases hok : o = k
  · rw [hok, State.modObj_objs_self, Function.update_self]
  · rw [State.modObj_objs_of_ne hok, Function.update_of_ne hok]

theorem foldl_clearPowersaveMode_modes (l : List ObjId) (s : State) :
    (l.foldl clearPowersaveMode s).modes = fun o => s.modes o && !decide (o ∈ l) := by
  induction l generalizing s with
  | nil => simp
  | cons k l ih =>
    rw [List.foldl_cons, ih, clearPowersaveMode, modes_modObj]
    funext o
    by_cases hok : o = k
    · simp [hok]
    · simp [hok]

/-- The cpu falls asleep, and its irqs are queued. -/
theorem sleep_modes (hu : (let s := s.modObj k fun o => { o with powersaveMode := true }
      (if (s.objs k).interrupts = [] then some s
        else forEachIrq (fun s => (s.objs k).interrupts) forceIrqMigration s)) = some s') :
    s'.modes = Function.update s.modes k true := by
  dsimp only at hu
  rw [← modes_modObj s k true]
  split_ifs at hu
  · cases hu
    rfl
  · exact modes_of_scores (forEachIrq_forceIrqMigration_scores hu)

/-- **The decision is made as at the start of the pass.** -/
theorem updatePowersave_modes {r : State × LoadBalanceInfo} (hlive : Live s) (hf : findOverloadedObjs s.cpus s = some r)
    (hu : updatePowersave r.1 r.2 = some t) : t.modes = s.modesAfter := by
  have hr := findOverloadedObjs_rearrange hlive (fun o ho => mem_topology_of_cpu ho) hf
  have hmodes : r.1.modes = s.modes := modes_of_scores (findOverloadedObjs_counts hf).1
  have hopts : r.1.opts = s.opts := show r.1.globals.opts = s.globals.opts by rw [hr.globals_eq]
  have hcycle : r.1.cycleCount = s.cycleCount := show r.1.globals.cycleCount = s.globals.cycleCount by rw [hr.globals_eq]
  have hcpus := cpus_of_static hr.static_eq
  obtain ⟨hunder, hover, -⟩ := findOverloadedObjs_counted hf
  unfold IrqBalance.updatePowersave at hu
  unfold State.modesAfter
  rw [hopts, hcycle, hunder, hover, hcpus] at hu
  by_cases hon : s.opts.powerThresh ≠ ullongMax ∧ 5 < s.cycleCount
  · obtain ⟨hproposed, hasleep⟩ := findOverloadedObjs_proposes hon.1 hf
    rw [if_pos hon, hproposed, hasleep] at hu
    rw [if_pos hon]
    have hany : ∀ p : ObjId → Bool, s.cpus.any p = true ↔ s.cpus.countP p ≠ 0 := fun p => by
      simp [List.countP_eq_zero]
    simp only [hany]
    by_cases hsome : s.cpus.countP s.overloaded = 0
    · rw [if_neg (not_not.2 hsome)]
      cases hd : s.drowsy with
      | none =>
        simp only [hd, hsome, ne_eq, not_true_eq_false, false_and, if_false, Option.some.injEq] at hu
        rw [← hu, hmodes, Option.elim_none, ite_self]
      | some k =>
        rw [hd] at hu
        by_cases hmany : s.opts.powerThresh.toNat ≤ s.cpus.countP s.underloaded
        · rw [if_pos hmany, Option.elim_some, ← hmodes]
          dsimp only at hu
          rw [if_pos ⟨hsome, hmany⟩] at hu
          exact sleep_modes hu
        · simp only [hsome, hmany, ne_eq, not_true_eq_false, and_false, false_and, if_false, Option.some.injEq] at hu
          rw [if_neg hmany, ← hu, hmodes]
    · rw [if_pos hsome]
      have hwake : (if s.cpus.countP s.overloaded ≠ 0 ∧ s.cpus.countP s.modes ≠ 0 then
          some (s.cpus.foldl clearPowersaveMode r.1) else some r.1) = some t := by
        cases hd : s.drowsy with
        | none => rwa [hd] at hu
        | some k =>
          rw [hd] at hu
          dsimp only at hu
          rwa [if_neg fun h => hsome h.1] at hu
      by_cases hasleep : s.cpus.countP s.modes = 0
      · rw [if_neg fun h => h.2 hasleep] at hwake
        rw [if_neg (not_not.2 hasleep), ← Option.some.inj hwake, hmodes]
      · rw [if_pos ⟨hsome, hasleep⟩] at hwake
        rw [if_pos hasleep, ← Option.some.inj hwake, foldl_clearPowersaveMode_modes, hmodes]
  · rw [if_neg hon] at hu ⊢
    cases hu
    exact hmodes

/-- **The powersave decision**: in every run `update_migration_status` changes the modes as `modesAfter` says. -/
theorem powersave_decides (h : Reach anyStep .migration s) (hu : updateMigrationStatus s = some s') :
    s'.modes = s.modesAfter := by
  obtain ⟨r, t, hf, ht, -, -, -, hscores⟩ := updateMigrationStatus_passes (h.live rfl) hu
  rw [modes_of_scores hscores, updatePowersave_modes (h.live rfl) hf ht]

/-- The idle machine with two cpus, in its seventh cycle: the first cpu falls asleep. -/
theorem powersave_decides_seventh : ∃ s s', updateMigrationStatus s = some s' ∧ s.drowsy = some 1 ∧
    s.modesAfter 1 = true ∧ s'.modes = s.modesAfter := by
  have hrun : (execs (List.replicate 63 twoCpusEnv)
      (.start, State.initial { powerThresh := 1 } fun _ => 0)).bind (fun r => (updateMigrationStatus r.2).map fun _ =>
        (r.1, r.2.drowsy, r.2.modesAfter 1)) = some (.migration, some 1, true) := by
    decide +kernel
  obtain ⟨⟨pc, s⟩, hr, hrun⟩ := Option.bind_eq_some_iff.1 hrun
  obtain ⟨s', hu, e⟩ := Option.map_eq_some_iff.1 hrun
  simp only [Prod.mk.injEq] at e
  obtain ⟨rfl, hdrowsy, hafter⟩ := e
  exact ⟨s, s', hu, hdrowsy, hafter, powersave_decides ((Reach.init { powerThresh := 1 } (fun _ => 0) rfl).execs_any hr) hu⟩

/-! ### Counting the sleepers -/

/-- How many cpus sleep. -/
def State.asleep (s : State) : ℕ := s.cpus.countP s.modes

theorem asleep_congr (hcpus : s'.cpus = s.cpus) (hmodes : s'.modes = s.modes) : s'.asleep = s.asleep := by
  unfold State.asleep
  rw [hcpus, hmodes]

theorem countP_update_le {l : List ObjId} (hnd : l.Nodup) (m : ObjId → Bool) (k : ObjId) :
    l.countP (Function.update m k true) ≤ l.countP m + 1 := by
  have hle : l.countP (Function.update m k true) ≤ l.countP m + l.count k := by
    clear hnd
    induction l with
    | nil => exact le_rfl
    | cons o l ih =>
      rw [List.countP_cons, List.countP_cons, List.count_cons]
      by_cases hok : o = k
      · simp only [hok, Function.update_self, beq_self_eq_true, if_true]
        omega
      · rw [Function.update_of_ne hok]
        omega
  exact hle.trans (Nat.add_le_add_left (List.nodup_iff_count_le_one.1 hnd k) _)

/-- One more at most falls asleep, and none before the seventh cycle. -/
theorem countP_modesAfter_le (hnd : s.cpus.Nodup) : s.cpus.countP s.modesAfter ≤ s.asleep ∨
    (s.opts.powerThresh ≠ ullongMax ∧ 5 < s.cycleCount) ∧ s.cpus.countP s.modesAfter ≤ s.asleep + 1 := by
  unfold State.modesAfter
  split_ifs with hon hover hany hmany
  · left
    exact List.countP_mono_left fun o _ h => (Bool.and_eq_true_iff.1 h).1
  · exact Or.inl le_rfl
  · cases hd : s.drowsy with
    | none => exact Or.inl le_rfl
    | some k =>
      exact Or.inr ⟨hon, countP_update_le hnd s.modes k⟩
  · exact Or.inl le_rfl
  · exact Or.inl le_rfl

theorem placing_modes (m : ObjId → Bool) : KeptByPlacing fun t => t.modes = m where
  toNode := by
    intro i t u hlive _ hi h hu
    rcases placeIrqInNode_cases hlive hi hu with ⟨rfl, -⟩ | ⟨-, hm⟩
    · exact h
    · exact (funext (powersaveMode_of_unmoved hm.unmoved_eq)).trans h
  down := by
    intro d i t u hlive ha hi h hu
    rcases findBestObjectForIrq_cases hlive (some_mem_slots.1 ha) hi hu with ⟨rfl, -⟩ | ⟨c, -, -, -, hm⟩
    · exact h
    · exact (funext (powersaveMode_of_unmoved hm.unmoved_eq)).trans h

/-- What a statement does to the number of sleepers. -/
inductive Dozes (pc : Pc) (s s' : State) : Prop
  | none (h : s'.asleep = 0)
  | noMore (hopts : s'.opts = s.opts) (h : s'.asleep ≤ s.asleep)
  | one (hpc : pc = .migration) (hopts : s'.opts = s.opts)
      (hon : s.opts.powerThresh ≠ ullongMax ∧ 5 < s.cycleCount) (h : s'.asleep ≤ s.asleep + 1)

/-- **A statement puts at most one cpu to sleep**, and only in `update_migration_status` behind the fifth cycle. -/
theorem Reach.exec_dozes {env : Env} (h : Reach anyStep pc s) (hexec : exec env pc s = some (pc', s')) :
    Dozes pc s s' := by
  have hs := h.holds
  cases exec_stmt hexec with
  | build hbare _ hb =>
    rw [hbare] at hs
    have hbuilt := Bare.build hs hb
    refine .none (List.countP_eq_zero.2 fun k hk => ?_)
    rw [show s'.modes k = false from hbuilt.awake k (mem_topology_of_cpu hk)]
    exact Bool.false_ne_true
  | force hbuilt _ hf =>
    rw [hbuilt] at hs
    rw [Built.force hs hf]
    exact .noMore rfl le_rfl
  | quiet _ _ hq =>
    have hmodes : s'.modes = s.modes := show s'.quiet.modes = s.quiet.modes by rw [hq]
    exact .noMore (show s'.quiet.opts = s.quiet.opts by rw [hq])
      (asleep_congr (cpus_of_static (static_of_quiet hq)) hmodes).le
  | free => exact .none rfl
  | migrate hu =>
    have hlive := h.live rfl
    obtain ⟨r, t, hf, ht, -, -, -, hscores⟩ := updateMigrationStatus_passes hlive hu
    have hmodes : s'.modes = s.modesAfter := by
      rw [modes_of_scores hscores, updatePowersave_modes hlive hf ht]
    have hr := updateMigrationStatus_rearrange hlive hu
    have hopts : s'.opts = s.opts := show s'.globals.opts = s.globals.opts by rw [hr.globals_eq]
    have hasleep : s'.asleep = s.cpus.countP s.modesAfter := by
      unfold State.asleep
      rw [cpus_of_static hr.static_eq, hmodes]
    rcases countP_modesAfter_le hlive.topo.cpus_nodup with hle | ⟨hon, hle⟩
    · exact .noMore hopts (hasleep.trans_le hle)
    · exact .one rfl hopts hon (hasleep.trans_le hle)
  | place hp =>
    have hlive := h.live rfl
    have hr := calculatePlacement_rearrange hlive hp
    have hmodes : s'.modes = s.modes := by
      refine ((placing_modes s.modes).calculatePlacement ?_ hlive).1 s' hp
      exact funext (powersaveMode_of_unmoved (setSlot_unmoved ..))
    exact .noMore (show s'.globals.opts = s.globals.opts by rw [hr.globals_eq])
      (asleep_congr (cpus_of_static hr.static_eq) hmodes).le
  | activate ha =>
    have e := activateMappings_unactivated ha
    have hmodes : s'.modes = s.modes := show s'.unactivated.modes = s.unactivated.modes by rw [e]
    exact .noMore (show s'.unactivated.opts = s.unactivated.opts by rw [e])
      (asleep_congr (cpus_of_static (static_of_unactivated e)) hmodes).le

/-- Two statements change `cycle_count`. -/
theorem Reach.exec_cycleCount {env : Env} (h : Reach anyStep pc s) (hexec : exec env pc s = some (pc', s'))
    (hreset : pc ≠ .resetCycleCount) (hcount : pc ≠ .countCycle) : s'.cycleCount = s.cycleCount := by
  by_cases hstmt : pc.resets = true
  · exact exec_resets h.holds hstmt hexec
  cases pc with
  | resetCycleCount => exact absurd rfl hreset
  | countCycle => exact absurd rfl hcount
  | start =>
    obtain ⟨u, hu, hexec⟩ := Option.bind_eq_some_iff.1 hexec
    have hcycle := buildObjectTree_cycleCount hu
    split_ifs at hexec <;> · cases hexec; exact hcycle
  | forceRebalance =>
    rw [Built.force h.holds (map_goto hexec).2]
    rfl
  | parseInterrupts | loopInterrupts =>
    cases hexec
    exact cycleCount_of_noStats (parseProcInterrupts_noStats _ s)
  | parseStat | loopStat =>
    exact cycleCount_of_noStats (noStats_of_noLoads (parseProcStat_noLoads (map_goto hexec).2))
  | loopClearStats => exact cycleCount_of_noStats (noStats_of_noLoads (clearWorkStats_noLoads (map_goto hexec).2))
  | loop | rescanTest | resetNeedRescan => cases hexec; rfl
  | migration =>
    unfold exec at hexec
    dsimp only at hexec
    split_ifs at hexec
    · cases hexec
      rfl
    · have hr := updateMigrationStatus_rearrange (h.live rfl) (map_goto hexec).2
      exact show s'.globals.cycleCount = s.globals.cycleCount by rw [hr.globals_eq]
  | placement =>
    have hr := calculatePlacement_rearrange (h.live rfl) (map_goto hexec).2
    exact show s'.globals.cycleCount = s.globals.cycleCount by rw [hr.globals_eq]
  | activation =>
    have e := activateMappings_unactivated (map_goto hexec).2
    exact show s'.unactivated.cycleCount = s.unactivated.cycleCount by rw [e]
  | done => cases hexec
  | _ => exact absurd rfl hstmt

/-- How many cycles the tree has been used, behind the statement `pc`. -/
def Pc.age (n : ℕ) : Pc → ℕ
  | .start | .buildTree => 0
  | .countCycle => n + 1
  | _ => n

/-- One event of a run, with the cycles of the tree. -/
def agedEvent (r : ℕ × Pc × State) : Event → Option (ℕ × Pc × State)
  | .stmt env => (exec env r.2.1 r.2.2).map fun next => (r.2.1.age r.1, next)
  | .hup => if r.2.1 = .start then none else some (r.1, r.2.1, forceRescan r.2.2)

/-- A run of `main` from its start, with the cycles of the tree. -/
def aged (opts : Options) (smpAffinity : ℤ → Cpumask) (events : List Event) : Option (ℕ × Pc × State) :=
  events.foldlM agedEvent (0, .start, State.initial opts smpAffinity)

/-- The cpus that may sleep in front of the statement: one for each cycle from the seventh. -/
def Pc.mayDoze (n : ℕ) : Pc → ℕ
  | .placement | .activation | .countCycle => n - 5
  | _ => n - 6

/-- `cycle_count` may wrap, but it is never above the number of cycles. -/
structure Aged (n : ℕ) (pc : Pc) (s : State) : Prop where
  reach : Reach anyStep pc s
  cycleCount : s.cycleCount.toNat ≤ n
  asleep : s.asleep ≤ pc.mayDoze n
  off : s.opts.powerThresh = ullongMax → s.asleep = 0

theorem Pc.le_mayDoze (n : ℕ) (pc : Pc) : n - 6 ≤ pc.mayDoze n ∧ pc.mayDoze n ≤ n - 5 := by
  cases pc <;> simp [Pc.mayDoze] <;> omega

/-- From one statement to the next. -/
theorem Pc.mayDoze_le {env : Env} (n : ℕ) (hbare : pc.phase ≠ .bare) (hexec : exec env pc s = some (pc', s')) :
    pc.mayDoze n ≤ pc'.mayDoze (pc.age n) := by
  have hnext := exec_next hexec
  have hlow := (pc'.le_mayDoze n).1
  cases pc with
  | start | buildTree => exact absurd rfl hbare
  | placement | activation =>
    rw [List.mem_singleton.1 hnext]
    exact le_rfl
  | countCycle =>
    rw [List.mem_singleton.1 hnext]
    simp only [Pc.mayDoze, Pc.age]
    omega
  | _ => exact hlow

/-- **One statement.** -/
theorem Aged.stmt {n : ℕ} {env : Env} (h : Aged n pc s) (hexec : exec env pc s = some (pc', s')) :
    Aged (pc.age n) pc' s' := by
  have hcycle : s'.cycleCount.toNat ≤ pc.age n := by
    have hle := h.cycleCount
    cases pc with
    | countCycle =>
      cases hexec
      simp only [Pc.age, UInt64.toNat_add, UInt64.toNat_one]
      omega
    | resetCycleCount =>
      cases hexec
      exact Nat.zero_le n
    | start | buildTree =>
      rw [h.reach.exec_cycleCount hexec (by decide) (by decide), h.reach.cycleCount_bare rfl]
      exact le_rfl
    | _ =>
      rw [h.reach.exec_cycleCount hexec (by decide) (by decide)]
      exact hle
  refine ⟨h.reach.exec_any hexec, hcycle, ?_, fun hoff => ?_⟩
  · have hmay := h.asleep
    cases h.reach.exec_dozes hexec with
    | none h => omega
    | noMore hopts hle =>
      by_cases hbare : pc.phase = .bare
      · -- there is no cpu
        have hs := h.reach.holds
        rw [hbare] at hs
        have hcpus : s.cpus = [] := (show Bare s from hs).treeless.cpus
        have hzero : s.asleep = 0 := by simp [State.asleep, hcpus]
        omega
      · exact hle.trans (hmay.trans (Pc.mayDoze_le n hbare hexec))
    | one hpc hopts hon hle =>
      subst hpc
      rw [List.mem_singleton.1 (exec_next hexec)]
      have hn : 5 < n := lt_of_lt_of_le (UInt64.lt_iff_toNat_lt.1 hon.2) h.cycleCount
      simp only [Pc.mayDoze, Pc.age] at hmay ⊢
      omega
  · cases h.reach.exec_dozes hexec with
    | none h => exact h
    | noMore hopts hle =>
      rw [hopts] at hoff
      have hzero := h.off hoff
      omega
    | one hpc hopts hon hle =>
      rw [hopts] at hoff
      exact absurd hoff hon.1

/-- **Sleepers come one by one**: in every run, after `n` cycles with the same tree at most `n - 5` cpus sleep, and
none if there is no threshold. -/
theorem asleep_le_cycles (opts : Options) (smpAffinity : ℤ → Cpumask) (events : List Event) (r : ℕ × Pc × State)
    (hopts : opts.numaAvail = false) (h : aged opts smpAffinity events = some r) :
    r.2.2.asleep ≤ r.1 - 5 ∧ (r.2.2.opts.powerThresh = ullongMax → r.2.2.asleep = 0) := by
  suffices Aged r.1 r.2.1 r.2.2 from ⟨this.asleep.trans (Pc.le_mayDoze ..).2, this.off⟩
  refine Loops.foldlM_inv (fun r : ℕ × Pc × State => Aged r.1 r.2.1 r.2.2) ?_
    ⟨.init opts smpAffinity hopts, Nat.zero_le _, Nat.zero_le _, fun _ => rfl⟩ h
  rintro e - ⟨n, pc, s⟩ r' hr he
  cases e with
  | stmt env =>
    obtain ⟨⟨pc', s'⟩, hexec, rfl⟩ := Option.map_eq_some_iff.1 he
    exact hr.stmt hexec
  | hup =>
    unfold agedEvent at he
    dsimp only at he
    split_ifs at he with hpc
    cases he
    have hsame : (forceRescan s).asleep = s.asleep ∧ (forceRescan s).opts = s.opts := by
      unfold forceRescan
      split_ifs <;> exact ⟨rfl, rfl⟩
    refine ⟨hr.reach.hup hpc, ?_, ?_, ?_⟩ <;> dsimp only
    · rw [forceRescan_cycleCount]
      exact hr.cycleCount
    · rw [hsame.1]
      exact hr.asleep
    · rw [hsame.1, hsame.2]
      exact hr.off

/-- In the seventh cycle the bound is reached. -/
theorem asleep_le_cycles_seventh : ∃ r, aged { powerThresh := 1 } (fun _ => 0)
    (List.replicate 64 (.stmt twoCpusEnv)) = some r ∧ r.1 = 6 ∧ r.2.2.asleep = 1 ∧ r.2.2.asleep ≤ r.1 - 5 := by
  have hrun : (aged { powerThresh := 1 } (fun _ => 0) (List.replicate 64 (.stmt twoCpusEnv))).map
      (fun r => (r.1, r.2.2.asleep)) = some (6, 1) := by
    decide +kernel
  obtain ⟨r, hr, e⟩ := Option.map_eq_some_iff.1 hrun
  obtain ⟨hn, hasleep⟩ := Prod.mk.inj e
  exact ⟨r, hr, hn, hasleep, (asleep_le_cycles { powerThresh := 1 } (fun _ => 0) _ r rfl hr).1⟩

end IrqBalance
