import IrqBalance.Powersave

/-!
# The last cpu that is awake

`update_migration_status` puts at most one cpu to sleep in a cycle, one that it counts as underloaded,
and only if no cpu is overloaded. Nothing stops it at the last one: on an idle machine the deviation of
the loads is 0, and every cpu is underloaded in every cycle.
-/

namespace IrqBalance

variable {s s' : State} {o k : ObjId} {l : List ObjId}

/-- The cpu counts as underloaded. -/
def State.underloaded (s : State) (k : ObjId) : Bool := isUnder (s.objs k).load (loadStats s.cpus s)

/-- The cpu counts as overloaded. -/
def State.overloaded (s : State) (k : ObjId) : Bool :=
  !s.underloaded k && isOver (s.objs k).load (loadStats s.cpus s)

/-- Power saving is on, and the last cpu that is awake is one to put to sleep. -/
structure LastCpuSleeps (s : State) : Prop where
  powerThresh : s.opts.powerThresh ≠ ullongMax
  cycle : 5 < s.cycleCount
  noneOver : ∀ k ∈ s.cpus, s.overloaded k = false
  manyUnder : s.opts.powerThresh.toNat ≤ s.cpus.countP s.underloaded
  last : ∃ k ∈ s.cpus, s.underloaded k = true ∧
    ∀ k' ∈ s.cpus, (s.objs k').powersaveMode = false ↔ k' = k

/-! ### Counting the cpus -/

theorem isUnder_congr {load : UInt64} {info st : LoadBalanceInfo} (havg : info.avgLoad = st.avgLoad)
    (hstd : info.stdDeviation = st.stdDeviation) : isUnder load info = isUnder load st := by
  unfold isUnder
  rw [havg, hstd]

theorem isOver_congr {load : UInt64} {info st : LoadBalanceInfo} (havg : info.avgLoad = st.avgLoad)
    (hstd : info.stdDeviation = st.stdDeviation) : isOver load info = isOver load st := by
  unfold isOver
  rw [havg, hstd]

/-- What the counters say about the objects `l`, with the average and the deviation of `st`. -/
structure Counted (s : State) (st : LoadBalanceInfo) (l : List ObjId) (info r : LoadBalanceInfo) :
    Prop where
  avgLoad : r.avgLoad = st.avgLoad
  stdDeviation : r.stdDeviation = st.stdDeviation
  numUnder : r.numUnder = info.numUnder + l.countP fun o => isUnder (s.objs o).load st
  numOver : r.numOver = info.numOver +
    l.countP fun o => !isUnder (s.objs o).load st && isOver (s.objs o).load st
  powersave : ∀ k, r.powersave = some k → info.powersave = some k ∨
    isUnder (s.objs k).load st = true ∧ (s.objs k).powersaveMode = false

theorem countObj_counted {st info : LoadBalanceInfo} (havg : info.avgLoad = st.avgLoad)
    (hstd : info.stdDeviation = st.stdDeviation) (o : ObjId) :
    Counted s st [o] info (countObj s info o) := by
  rw [countObj_eq, isUnder_congr havg hstd, isOver_congr havg hstd]
  cases hunder : isUnder (s.objs o).load st
  · cases hover : isOver (s.objs o).load st
    · exact ⟨havg, hstd, by simp [hunder], by simp [hover], fun k hk => Or.inl hk⟩
    · exact ⟨havg, hstd, by simp [hunder], by simp [hunder, hover], fun k hk => Or.inl hk⟩
  · refine ⟨havg, hstd, by simp [hunder], by simp [hunder], fun k hk => ?_⟩
    dsimp only at hk
    by_cases hpick : s.opts.powerThresh ≠ ullongMax ∧ info.powersave = none ∧
        (s.objs o).powersaveMode = false
    · rw [if_pos rfl] at hk
      dsimp only at hk
      rw [if_pos hpick, Option.some.injEq] at hk
      subst hk
      exact Or.inr ⟨hunder, hpick.2.2⟩
    · rw [if_pos rfl] at hk
      dsimp only at hk
      rw [if_neg hpick] at hk
      exact Or.inl hk

/-- **The counters count the objects.** -/
theorem foldl_countObj_counted {st info : LoadBalanceInfo} (havg : info.avgLoad = st.avgLoad)
    (hstd : info.stdDeviation = st.stdDeviation) (l : List ObjId) :
    Counted s st l info (l.foldl (countObj s) info) := by
  induction l generalizing info with
  | nil => exact ⟨havg, hstd, rfl, rfl, fun _ h => Or.inl h⟩
  | cons o l ih =>
    have hone := countObj_counted (s := s) havg hstd o
    have hrest := ih hone.avgLoad hone.stdDeviation
    rw [List.foldl_cons]
    refine ⟨hrest.avgLoad, hrest.stdDeviation, ?_, ?_, fun k hk => ?_⟩
    · rw [hrest.numUnder, hone.numUnder]
      simp only [List.countP_cons, List.countP_nil]
      omega
    · rw [hrest.numOver, hone.numOver]
      simp only [List.countP_cons, List.countP_nil]
      omega
    · rcases hrest.powersave k hk with h | h
      · exact hone.powersave k h
      · exact Or.inr h

/-- The statistics behind the pass over the cpus. -/
theorem findOverloadedObjs_counted {r : State × LoadBalanceInfo}
    (h : findOverloadedObjs s.cpus s = some r) :
    r.2.numUnder = s.cpus.countP s.underloaded ∧ r.2.numOver = s.cpus.countP s.overloaded ∧
      ∀ k, r.2.powersave = some k → s.underloaded k = true ∧ (s.objs k).powersaveMode = false := by
  have hcounts := (findOverloadedObjs_counts h).2
  have hcounted : Counted s (loadStats s.cpus s) s.cpus (loadStats s.cpus s).counts
      (s.cpus.foldl (countObj s) (loadStats s.cpus s).counts) :=
    foldl_countObj_counted (by rfl) (by rfl) s.cpus
  rw [← hcounts] at hcounted
  have hzero := loadStats_counters s.cpus s
  simp only [LoadBalanceInfo.counters, Prod.mk.injEq] at hzero
  obtain ⟨hover, hunder, -, hpower⟩ := hzero
  refine ⟨?_, ?_, fun k hk => ?_⟩
  · have e := hcounted.numUnder
    change r.2.numUnder = (loadStats s.cpus s).numUnder + _ at e
    rw [hunder, Nat.zero_add] at e
    exact e
  · have e := hcounted.numOver
    change r.2.numOver = (loadStats s.cpus s).numOver + _ at e
    rw [hover, Nat.zero_add] at e
    exact e
  · rcases hcounted.powersave k hk with e | e
    · change (loadStats s.cpus s).powersave = some k at e
      rw [hpower] at e
      cases e
    · exact e

/-! ### Keeping a cpu awake -/

/-- Some cpu is awake, if there is one. -/
def SomeAwake (s : State) : Prop := s.cpus ≠ [] → ∃ k ∈ s.cpus, (s.objs k).powersaveMode = false

theorem SomeAwake.congr (h : SomeAwake s) (hcpus : s'.cpus = s.cpus)
    (hsleep : ∀ o, (s.objs o).powersaveMode = false → (s'.objs o).powersaveMode = false) :
    SomeAwake s' := by
  intro hne
  rw [hcpus] at hne ⊢
  obtain ⟨k, hk, hawake⟩ := h hne
  exact ⟨k, hk, hsleep k hawake⟩

theorem SomeAwake.of_quiet (h : SomeAwake s) (e : s'.quiet = s.quiet) : SomeAwake s' := by
  refine h.congr (cpus_of_static (static_of_quiet e)) fun o ho => ?_
  exact show (s'.quiet.objs o).powersaveMode = false by rw [e]; exact ho

theorem forEachIrq_forceIrqMigration_scores {list : State → List IrqId}
    (h : forEachIrq list forceIrqMigration s = some s') : s'.scores = s.scores :=
  forEachIrq_view State.scores (fun _ _ _ hu => forceIrqMigration_scores hu) h

/-- What the powersave decision does to the powersave modes: it wakes cpus up, or puts one to sleep. -/
theorem updatePowersave_sleep {info : LoadBalanceInfo} (hu : updatePowersave s info = some s') :
    (∀ o, (s.objs o).powersaveMode = false → (s'.objs o).powersaveMode = false) ∨
    ∃ k, (s.opts.powerThresh ≠ ullongMax ∧ 5 < s.cycleCount) ∧ info.powersave = some k ∧
      info.numOver = 0 ∧ s.opts.powerThresh.toNat ≤ info.numUnder ∧
      ∀ o, o ≠ k → (s'.objs o).powersaveMode = (s.objs o).powersaveMode := by
  have hwake : ∀ o, (s.objs o).powersaveMode = false →
      ((s.cpus.foldl clearPowersaveMode s).objs o).powersaveMode = false := fun o ho =>
    foldl_clearPowersaveMode_awake _ ho
  unfold updatePowersave at hu
  by_cases hon : s.opts.powerThresh ≠ ullongMax ∧ 5 < s.cycleCount
  · rw [if_pos hon] at hu
    cases hp : info.powersave with
    | none =>
      rw [hp] at hu
      dsimp only at hu
      split_ifs at hu
      · cases hu; exact Or.inl hwake
      · cases hu; exact Or.inl fun _ h => h
    | some k =>
      rw [hp] at hu
      dsimp only at hu
      by_cases henter : info.numOver = 0 ∧ s.opts.powerThresh.toNat ≤ info.numUnder
      · rw [if_pos henter] at hu
        refine Or.inr ⟨k, hon, rfl, henter.1, henter.2, fun o ho => ?_⟩
        split_ifs at hu
        · cases hu
          rw [State.modObj_objs_of_ne ho]
        · rw [powersaveMode_of_scores (forEachIrq_forceIrqMigration_scores hu),
            State.modObj_objs_of_ne ho]
      · rw [if_neg henter] at hu
        split_ifs at hu
        · cases hu; exact Or.inl hwake
        · cases hu; exact Or.inl fun _ h => h
  · rw [if_neg hon] at hu
    cases hu
    exact Or.inl fun _ h => h

/-- **A cycle in which the last cpu is not put to sleep leaves some cpu awake.** -/
theorem SomeAwake.updateMigrationStatus (h : SomeAwake s) (hlive : Live s) (hlast : ¬ LastCpuSleeps s)
    (hu : updateMigrationStatus s = some s') : SomeAwake s' := by
  obtain ⟨r, t, hr, ht, e₁, e₂, e₃, hscores⟩ := updateMigrationStatus_passes hlive hu
  obtain ⟨hunder, hover, hpick⟩ := findOverloadedObjs_counted hr
  have hscores₁ := (findOverloadedObjs_counts hr).1
  have hopts : r.1.opts = s.opts := congrArg Prod.fst hscores₁
  have hcycle : r.1.cycleCount = s.cycleCount :=
    show r.1.globals.cycleCount = s.globals.cycleCount by rw [e₁.globals_eq]
  have hcpus : s'.cpus = s.cpus := cpus_of_static (e₁.trans (e₂.trans e₃)).static_eq
  have hsleep : ∀ o, (s'.objs o).powersaveMode = (t.objs o).powersaveMode :=
    powersaveMode_of_scores hscores
  have hsleep₁ : ∀ o, (r.1.objs o).powersaveMode = (s.objs o).powersaveMode :=
    powersaveMode_of_scores hscores₁
  rcases updatePowersave_sleep ht with hwake | ⟨k, ⟨hthresh, hlate⟩, hk, hnone, hmany, hother⟩
  · apply h.congr hcpus
    intro o ho
    rw [hsleep]
    exact hwake o (by rw [hsleep₁]; exact ho)
  · -- `k` falls asleep; another cpu is awake, or `k` was the last one
    have hkcpus : k ∈ s.cpus := findOverloadedObjs_powersave hr k hk
    obtain ⟨hkunder, hkawake⟩ := hpick k hk
    intro _
    rw [hcpus]
    by_contra hall
    refine hlast ⟨hopts ▸ hthresh, hcycle ▸ hlate, ?_, ?_, k, hkcpus, hkunder, fun k' hk' => ?_⟩
    · rw [hover, List.countP_eq_zero] at hnone
      exact fun k' hk' => Bool.eq_false_iff.2 (hnone k' hk')
    · rw [hopts, hunder] at hmany
      exact hmany
    · refine ⟨fun hawake => ?_, fun e => e ▸ hkawake⟩
      by_contra hne
      exact hall ⟨k', hk', by rw [hsleep, hother k' hne, hsleep₁]; exact hawake⟩

/-- **In every run in which the last cpu that is awake is never the one to put to sleep, some cpu stays
awake.** -/
theorem some_cpu_awake {pc : Pc} {s : State}
    (h : Reach (fun _ pc s => pc = .migration → ¬ LastCpuSleeps s) pc s) (hne : s.cpus ≠ []) :
    ∃ k ∈ s.cpus, (s.objs k).powersaveMode = false := by
  have hbuilt : ∀ s, Built s → SomeAwake s := fun s hs hne => by
    obtain ⟨k, hk⟩ := List.exists_mem_of_ne_nil _ hne
    exact ⟨k, hk, hs.awake k (mem_topology_of_cpu hk)⟩
  have hlive : ∀ {pc : Pc} {s : State},
      Reach (fun _ pc s => pc = .migration → ¬ LastCpuSleeps s) pc s → pc.phase = .live →
        SomeAwake s := by
    intro pc s h hpc
    refine h.live_inv SomeAwake ?_ ?_ ?_ ?_ ?_ hpc
    · exact fun s hs => (hbuilt s hs).congr rfl fun _ ho => ho
    · exact fun s s' _ hs e => hs.of_quiet e
    · exact fun _ _ _ hlast hlive hs hu => hs.updateMigrationStatus hlive (hlast rfl) hu
    · intro _ s s' _ hlive hs hp
      have e := calculatePlacement_unmoved hp
      refine hs.congr (cpus_of_static (calculatePlacement_rearrange hlive hp).static_eq) fun o ho => ?_
      rw [powersaveMode_of_unmoved e]
      exact ho
    · intro _ s s' _ _ hs ha
      have e := activateMappings_unactivated ha
      refine hs.congr (cpus_of_static (static_of_unactivated e)) fun o ho => ?_
      exact show (s'.unactivated.objs o).powersaveMode = false by rw [e]; exact ho
  have hbare : ∀ s, Bare s → SomeAwake s := fun s hs hne => absurd hs.treeless.cpus hne
  exact h.everywhere hbare hbuilt (fun _ _ => hlive) (fun _ _ hs e => hs.of_quiet e) hne

/-- The options with `--powerthresh=1`. -/
def powerThreshOne : Options := { powerThresh := 1 }

/-- The machine with two cpus before the first cycle. -/
theorem some_cpu_awake_twoCpus : ∃ s,
    execs (List.replicate 4 twoCpusEnv) (.start, State.initial powerThreshOne fun _ => 0) =
      some (.loop, s) ∧
    ∃ k ∈ s.cpus, (s.objs k).powersaveMode = false := by
  have hrun : (execs (List.replicate 4 twoCpusEnv) (.start, State.initial powerThreshOne fun _ => 0)).map
      (fun r => (r.1, r.2.cpus)) = some (.loop, [1, 4]) := by
    decide +kernel
  obtain ⟨⟨pc, s⟩, hr, e⟩ := Option.map_eq_some_iff.1 hrun
  simp only [Prod.mk.injEq] at e
  obtain ⟨rfl, hcpus⟩ := e
  have hreach := (Reach.init (A := fun _ pc s => pc = .migration → ¬ LastCpuSleeps s)
    powerThreshOne (fun _ => 0) rfl).execs .migration (fun _ _ _ _ hpc h => absurd h hpc)
    (by decide +kernel) hr
  exact ⟨s, hr, some_cpu_awake hreach (by rw [hcpus]; decide)⟩

/-- **An idle machine goes to sleep as a whole**: with both loads 0, one cpu in the seventh cycle and the
other one in the eighth. -/
theorem all_cpus_asleep : ¬ ∀ (pc : Pc) (s : State), Reach anyStep pc s →
    1 ≤ s.opts.powerThresh.toNat → s.opts.powerThresh ≠ ullongMax → 2 ≤ s.cpus.length →
      ∃ k ∈ s.cpus, (s.objs k).powersaveMode = false := by
  intro h
  have hrun : (execs (List.replicate 73 twoCpusEnv)
      (.start, State.initial powerThreshOne fun _ => 0)).map (fun r =>
        (r.2.opts.powerThresh, r.2.cpus, r.2.cpus.map fun k => (r.2.objs k).powersaveMode)) =
      some (1, [1, 4], [true, true]) := by
    decide +kernel
  obtain ⟨⟨pc, s⟩, hr, e⟩ := Option.map_eq_some_iff.1 hrun
  simp only [Prod.mk.injEq] at e
  obtain ⟨hthresh, hcpus, hsleep⟩ := e
  have hreach : Reach anyStep pc s := (Reach.init powerThreshOne (fun _ => 0) rfl).execs_any hr
  obtain ⟨k, hk, hawake⟩ := h pc s hreach (by rw [hthresh]; decide) (by rw [hthresh]; decide)
    (by rw [hcpus]; decide)
  have hmem : false ∈ s.cpus.map fun k => (s.objs k).powersaveMode :=
    List.mem_map.2 ⟨k, hk, hawake⟩
  rw [hsleep] at hmem
  simp at hmem

end IrqBalance
