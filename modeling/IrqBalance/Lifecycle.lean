import IrqBalance.Affinity
import IrqBalance.Selection
import IrqBalance.Signals

/-!
# The life of an irq

A balanced irq waits in `rebalance_irq_list`, or it has been placed and the mask of its object is not yet written, or
that has been done. Between two rebuilds every irq goes round in this order: only `update_migration_status` sends
one back to the list, only `calculate_placement` takes one off it, and only `activate_mapping`, when it writes,
settles one (`lifecycle`).

So no irq is written more often than it is queued (`writes_le_queued`): the daemon does not fight over a mask with
somebody else who writes it.
-/

namespace IrqBalance

variable {s s' t u : State} {i j : IrqId} {o d : ObjId} {env : Env} {pc pc' : Pc} {n : ℤ}

/-- Where the statements of the loop may go on. -/
def Pc.next (keepGoing : Bool) : Pc → List Pc
  | .start => [.forceRebalance, .done]
  | .forceRebalance => [.parseInterrupts]
  | .parseInterrupts => [.parseStat]
  | .parseStat => [.loop]
  | .loop => [if keepGoing then .loopClearStats else .done]
  | .loopClearStats => [.loopInterrupts]
  | .loopInterrupts => [.loopStat]
  | .loopStat => [.rescanTest]
  | .rescanTest => [.resetNeedRescan, .migration]
  | .resetNeedRescan => [.resetCycleCount]
  | .resetCycleCount => [.rescanClearStats]
  | .rescanClearStats => [.freeTree]
  | .freeTree => [.buildTree]
  | .buildTree => [.rescanForceRebalance]
  | .rescanForceRebalance => [.rescanInterrupts]
  | .rescanInterrupts => [.rescanStat]
  | .rescanStat => [.settleClearStats]
  | .settleClearStats => [.settleInterrupts]
  | .settleInterrupts => [.settleStat]
  | .settleStat => [.migration]
  | .migration => [.placement]
  | .placement => [.activation]
  | .activation => [.countCycle]
  | .countCycle => [.loop]
  | .done => []

theorem exec_next {env : Env} (h : IrqBalance.exec env pc s = some (pc', s')) : pc' ∈ pc.next env.keepGoing := by
  cases pc with
  | start =>
    obtain ⟨u, -, h⟩ := Option.bind_eq_some_iff.1 h
    split_ifs at h <;> cases h <;> simp [Pc.next]
  | rescanTest =>
    cases h
    split_ifs <;> simp [Pc.next]
  | migration =>
    unfold IrqBalance.exec at h
    dsimp only at h
    split_ifs at h
    · cases h
      simp [Pc.next]
    · rw [(map_goto h).1]
      simp [Pc.next]
  | loop | parseInterrupts | loopInterrupts | resetNeedRescan | resetCycleCount | freeTree | rescanInterrupts
  | settleInterrupts | countCycle =>
    cases h
    simp [Pc.next]
  | done => cases h
  | forceRebalance | parseStat | loopClearStats | loopStat | rescanClearStats | buildTree | rescanForceRebalance
  | rescanStat | settleClearStats | settleStat | placement | activation =>
    unfold IrqBalance.exec at h
    rw [(map_goto h).1]
    simp [Pc.next]

/-- Where a balanced irq is in its life. -/
inductive IrqStage
  /-- in `rebalance_irq_list` -/
  | waiting
  /-- on an object, and not written since it was moved -/
  | placed
  /-- on an object, and written -/
  | settled
deriving DecidableEq

/-- The stage of the irq: its object, and `moved`. -/
def State.stage (s : State) (i : IrqId) : IrqStage :=
  if s.home i = none then .waiting else if (s.irqs i).moved then .placed else .settled

/-- What a statement may do to an irq. -/
inductive Advance : Pc → IrqStage → IrqStage → Prop
  | stay (pc : Pc) (a : IrqStage) : Advance pc a a
  | select (a : IrqStage) : Advance .migration a .waiting
  | place : Advance .placement .waiting .placed
  | write : Advance .activation .placed .settled

theorem stage_congr (hhome : s'.home i = s.home i) (hmoved : (s'.irqs i).moved = (s.irqs i).moved) :
    s'.stage i = s.stage i := by
  unfold State.stage
  rw [hhome, hmoved]

theorem stage_of_irqs (h : s'.irqs i = s.irqs i) : s'.stage i = s.stage i :=
  stage_congr (home_eq_of_irqs h) (by rw [h])

theorem stage_waiting : s.stage i = .waiting ↔ s.home i = none := by
  unfold State.stage
  split_ifs <;> simp_all

theorem stage_placed : s.stage i = .placed ↔ s.home i ≠ none ∧ (s.irqs i).moved = true := by
  unfold State.stage
  split_ifs <;> simp_all

theorem stage_settled : s.stage i = .settled ↔ s.home i ≠ none ∧ (s.irqs i).moved = false := by
  unfold State.stage
  split_ifs <;> simp_all

theorem stage_of_quiet (e : s'.quiet = s.quiet) (i : IrqId) : s'.home i = s.home i ∧ s'.stage i = s.stage i := by
  have hhome : s'.home i = s.home i := by rw [home_of_quiet e]
  have hirq : (s'.irqs i).noStats = (s.irqs i).noStats := show s'.quiet.irqs i = s.quiet.irqs i by rw [e]
  have hmoved : (s'.irqs i).noStats.moved = (s.irqs i).noStats.moved := by rw [hirq]
  exact ⟨hhome, stage_congr hhome hmoved⟩

/-! ### Balancing and placing -/

/-- An irq that is moved at all goes to a bin of `D`, with `moved` set. -/
theorem Rearrange.irq_cases {D : Set (Option ObjId)} (hr : Rearrange D s s') (i : IrqId) :
    s'.irqs i = s.irqs i ∨ (s'.irqs i).moved = true ∧ s'.home i ∈ D := by
  induction hr with
  | refl => exact Or.inl rfl
  | @move t u j dst _ _ hdst _ hm ih =>
    by_cases hij : i = j
    · subst hij
      right
      rw [hm.home_eq, Function.update_self, hm.irqs_self]
      exact ⟨rfl, hdst.2⟩
    · rwa [State.home, hm.irqs_of_ne hij]
  | @sort t a _ _ ih =>
    have hirqs : (sortIrqList a t).irqs = t.irqs := State.setSlot_irqs ..
    rwa [State.home, hirqs]
  | sleep _ _ _ ih => exact ih

/-- **`update_migration_status`**: an irq stays as it is, or it is queued. -/
theorem updateMigrationStatus_stage (h : Live s) (hm : updateMigrationStatus s = some s') (i : IrqId) :
    Advance .migration (s.stage i) (s'.stage i) := by
  rcases (updateMigrationStatus_rearrange h hm).irq_cases i with e | ⟨-, hhome⟩
  · rw [stage_of_irqs e]
    exact .stay ..
  · rw [stage_waiting.2 hhome]
    exact .select _

/-- A pass does not send down an irq that has not moved. -/
theorem Down.of_unmoved {ds : List ObjId} {info info' : IrqInfo} (h : Down s i ds info info')
    (hmoved : info.moved = false) : info' = info := by
  rcases h with ⟨e, -⟩ | ⟨d, -, -, hstuck, -⟩
  · exact e
  · exact absurd (Or.inl hmoved) hstuck

/-- **`calculate_placement`** leaves an irq alone that is settled. -/
theorem calculatePlacement_settled (h : Live s) (hp : calculatePlacement s = some s') (hi : i ∈ s.live)
    (hs : s.stage i = .settled) : s'.irqs i = s.irqs i := by
  obtain ⟨hhome, hmoved⟩ := stage_settled.1 hs
  rcases calculatePlacement_trail h hp hi with ⟨-, e⟩ | ⟨info₁, info₂, info₃, hto, d₂, d₃, d₄⟩
  · exact e
  · rcases hto with ⟨-, rfl⟩ | ⟨hnone, -⟩
    · have e₂ := d₂.of_unmoved hmoved
      subst e₂
      have e₃ := d₃.of_unmoved hmoved
      subst e₃
      exact d₄.of_unmoved hmoved
    · exact absurd hnone hhome

/-- **`calculate_placement`**: an irq stays as it is, or it leaves the list. -/
theorem calculatePlacement_stage (h : Live s) (hp : calculatePlacement s = some s') (hi : i ∈ s.live) :
    Advance .placement (s.stage i) (s'.stage i) := by
  rcases (calculatePlacement_rearrange h hp).irq_cases i with e | ⟨hmoved, hhome⟩
  · rw [stage_of_irqs e]
    exact .stay ..
  · cases hs : s.stage i with
    | waiting =>
      rw [stage_placed.2 ⟨hhome, hmoved⟩]
      exact .place
    | placed =>
      rw [stage_placed.2 ⟨hhome, hmoved⟩]
      exact .stay ..
    | settled =>
      rw [stage_of_irqs (calculatePlacement_settled h hp hi hs), hs]
      exact .stay ..

/-! ### Activating -/

/-- What `activate_mapping` does to its irq. -/
theorem activateMapping_self_irqs {env : ProcIrq} (h : activateMapping env i s = some s') :
    (s'.irqs i).assignedObj = (s.irqs i).assignedObj ∧
      (s'.irqs i).moved = ((s.irqs i).moved && (writtenMask env s i).isNone) := by
  unfold activateMapping at h
  dsimp only at h
  cases hw : writtenMask env s i with
  | none =>
    rw [hw] at h
    cases h
    simp [State.modIrq]
  | some mask =>
    rw [hw] at h
    cases h
    simp [State.modIrq]

/-- The mask that is written depends on the irq and on what the kernel has for it. -/
theorem writtenMask_frame {env : ProcIrq} (ht : t.unactivated = s.unactivated) (hirq : t.irqs i = s.irqs i)
    (hmask : t.smpAffinity (s.number i) = s.smpAffinity (s.number i)) : writtenMask env t i = writtenMask env s i := by
  cases ho : (s.irqs i).assignedObj with
  | none => rw [writtenMask_unassigned ho, writtenMask_unassigned (by rw [hirq]; exact ho)]
  | some o =>
    refine Option.ext fun m => ?_
    rw [writtenMask_eq_some_iff ho, writtenMask_eq_some_iff (by rw [hirq]; exact ho), hirq, number_of_unactivated ht,
      hmask, target_of_static (static_of_unactivated ht)]

theorem activateMappings_walk {env : ProcIrq} (h : activateMappings env s = some s') :
    Loops.walk State.interruptsDb (activateMapping env) s = some s' := by
  unfold activateMappings forEachIrq forEachIrqOn at h
  simpa using h

/-- The irq has at its call what it has at the start. -/
def Untouched (s : State) (i : IrqId) (t : State) : Prop :=
  i ∈ s.interruptsDb ∧ t.irqs i = s.irqs i ∧ t.smpAffinity (s.number i) = s.smpAffinity (s.number i)

theorem Live.untouched (h : Live s) {env : ProcIrq} (i j : IrqId) (t u : State) (hij : i ≠ j)
    (ht : t.unactivated = s.unactivated) (hj : j ∈ t.interruptsDb) (hi : Untouched s i t)
    (hu : activateMapping env j t = some u) : Untouched s i u := by
  obtain ⟨hmem, hirq, hmask⟩ := hi
  obtain ⟨hirq', hmask'⟩ := h.activateMapping_frame hij ht hmem hj hu
  exact ⟨hmem, hirq'.trans hirq, hmask'.trans hmask⟩

/-- **The writes of `activate_mappings`** are those of the irqs of the database, as they are at the start. -/
theorem Live.affinityWrites_eq (h : Live s) {env : ProcIrq} (ha : activateMappings env s = some s') :
    affinityWrites env s = s.interruptsDb.filterMap fun i => (writtenMask env s i).map fun m => (s.number i, m) := by
  have hnd : ∀ t : State, t.unactivated = s.unactivated → t.interruptsDb.Nodup := fun _ ht => h.nodup_of_unactivated ht
  have hunlinks := activateMapping_unlinksSelf env s
  have hfst := Loops.calls_fst hnd hunlinks rfl (activateMappings_walk ha)
  have hcalls := Loops.mem_calls_each hnd hunlinks (Untouched s)
    (fun i j t u hij ht hj hi hu => h.untouched i j t u hij ht hj hi hu) rfl fun i hi => ⟨hi, rfl, rfl⟩
  have hinv := Loops.mem_calls hnd hunlinks rfl
  unfold affinityWrites forEachIrqCalls
  simp only [id, ite_self]
  conv_rhs => rw [← hfst]
  rw [List.filterMap_map]
  refine List.filterMap_congr fun c hc => ?_
  obtain ⟨-, hirq, hmask⟩ := hcalls c hc
  rw [Function.comp, writtenMask_frame (hinv c hc).1 hirq hmask, hirq]
  rfl

/-- The numbers that are written. -/
theorem Live.writtenNumbers (h : Live s) {env : ProcIrq} (ha : activateMappings env s = some s') :
    (affinityWrites env s).map Prod.fst =
      (s.interruptsDb.filter fun i => (writtenMask env s i).isSome).map s.number := by
  rw [h.affinityWrites_eq ha]
  induction s.interruptsDb with
  | nil => rfl
  | cons i l ih =>
    rw [List.filterMap_cons, List.filter_cons]
    cases writtenMask env s i with
    | none => exact ih
    | some m => exact congrArg (s.number i :: ·) ih

/-- A number is written at most once. -/
theorem Live.writtenNumbers_nodup (h : Live s) {env : ProcIrq} (ha : activateMappings env s = some s') :
    ((affinityWrites env s).map Prod.fst).Nodup := by
  rw [h.writtenNumbers ha]
  refine h.db.number_nodup.sublist ((List.filter_sublist.trans ?_).map _)
  exact List.sublist_append_left ..

/-- **`activate_mappings`** settles the irqs whose numbers it writes. -/
theorem Live.activateMappings_irqs (h : Live s) {env : ProcIrq} (ha : activateMappings env s = some s')
    (hi : i ∈ s.interruptsDb) : s'.home i = s.home i ∧
      (s'.irqs i).moved = ((s.irqs i).moved && (writtenMask env s i).isNone) := by
  refine Loops.walk_each (fun _ ht => h.nodup_of_unactivated ht) (activateMapping_unlinksSelf env s) (Untouched s)
    (fun i t => t.home i = s.home i ∧ (t.irqs i).moved = ((s.irqs i).moved && (writtenMask env s i).isNone))
    (fun i j t u hij ht hj hi hu => h.untouched i j t u hij ht hj hi hu) ?_ ?_ rfl (fun i hi => ⟨hi, rfl, rfl⟩)
    (activateMappings_walk ha) i hi
  · rintro i t u ht - ⟨-, hirq, hmask⟩ hu
    obtain ⟨hobj, hmoved⟩ := activateMapping_self_irqs hu
    rw [writtenMask_frame ht hirq hmask, hirq] at hmoved
    rw [hirq] at hobj
    exact ⟨hobj, hmoved⟩
  · rintro i j t u hij - - ⟨hhome, hmoved⟩ hu
    have hirq := activateMapping_irqs_of_ne hu hij
    exact ⟨(home_eq_of_irqs hirq).trans hhome, by rw [hirq, hmoved]⟩

/-- An irq is written if and only if it is settled by that. -/
theorem Live.written_iff (h : Live s) {env : ProcIrq} (ha : activateMappings env s = some s')
    (hi : i ∈ s.interruptsDb) : s.number i ∈ (affinityWrites env s).map Prod.fst ↔
      s.stage i = .placed ∧ s'.stage i = .settled := by
  obtain ⟨hhome, hmoved⟩ := h.activateMappings_irqs ha hi
  have hmem : s.number i ∈ (affinityWrites env s).map Prod.fst ↔ (writtenMask env s i).isSome = true := by
    rw [h.writtenNumbers ha, List.mem_map]
    constructor
    · rintro ⟨j, hj, hnumber⟩
      obtain ⟨hj, hsome⟩ := List.mem_filter.1 hj
      rwa [h.db.eq_of_number hj hi hnumber] at hsome
    · exact fun hsome => ⟨i, List.mem_filter.2 ⟨hi, hsome⟩, rfl⟩
  rw [hmem, stage_placed, stage_settled, hhome, hmoved]
  cases ho : (s.irqs i).assignedObj with
  | none => simp [writtenMask_unassigned ho, show s.home i = none from ho]
  | some o =>
    have hne : s.home i ≠ none := by rw [show s.home i = some o from ho]; exact Option.some_ne_none o
    cases hw : writtenMask env s i with
    | none =>
      simp only [Option.isSome_none, Bool.false_eq_true, Option.isNone_none, Bool.and_true, false_iff]
      rintro ⟨⟨-, htrue⟩, -, hfalse⟩
      rw [htrue] at hfalse
      cases hfalse
    | some m => simp [((writtenMask_eq_some_iff ho).1 hw).1, hne]

theorem Live.activateMappings_stage (h : Live s) {env : ProcIrq} (ha : activateMappings env s = some s')
    (hi : i ∈ s.interruptsDb) : Advance .activation (s.stage i) (s'.stage i) := by
  obtain ⟨hhome, hmoved⟩ := h.activateMappings_irqs ha hi
  cases hs : s.stage i with
  | waiting =>
    rw [stage_waiting.2 (hhome.trans (stage_waiting.1 hs))]
    exact .stay ..
  | settled =>
    obtain ⟨hne, hclean⟩ := stage_settled.1 hs
    rw [stage_settled.2 ⟨hhome ▸ hne, by rw [hmoved, hclean]; rfl⟩]
    exact .stay ..
  | placed =>
    obtain ⟨hne, -⟩ := stage_placed.1 hs
    cases hm : (s'.irqs i).moved with
    | true =>
      rw [stage_placed.2 ⟨hhome ▸ hne, hm⟩]
      exact .stay ..
    | false =>
      rw [stage_settled.2 ⟨hhome ▸ hne, hm⟩]
      exact .write

/-! ### Runs -/

/-- A statement between two rebuilds leaves tree and database alone, and takes every balanced irq along. -/
theorem Reach.advance (h : Reach anyStep pc s) (hpc : pc.phase = .live) (hfree : pc ≠ .freeTree)
    (hexec : exec env pc s = some (pc', s')) :
    s'.static = s.static ∧ ∀ i ∈ s.live, Advance pc (s.stage i) (s'.stage i) := by
  have hlive := h.live hpc
  cases exec_stmt hexec with
  | build hbare => rw [hpc] at hbare; cases hbare
  | force hbuilt => rw [hpc] at hbuilt; cases hbuilt
  | quiet _ _ hq =>
    refine ⟨static_of_quiet hq, fun i _ => ?_⟩
    rw [(stage_of_quiet hq i).2]
    exact .stay ..
  | free => exact absurd rfl hfree
  | migrate hm =>
    exact ⟨(updateMigrationStatus_rearrange hlive hm).static_eq, fun i _ => updateMigrationStatus_stage hlive hm i⟩
  | place hp =>
    exact ⟨(calculatePlacement_rearrange hlive hp).static_eq, fun i hi => calculatePlacement_stage hlive hp hi⟩
  | activate ha =>
    exact ⟨static_of_unactivated (activateMappings_unactivated ha), fun i hi => hlive.activateMappings_stage ha hi.1⟩

/-- An irq that is settled changes its object only to wait. -/
theorem Reach.home_cases (h : Reach anyStep pc s) (hpc : pc.phase = .live) (hfree : pc ≠ .freeTree)
    (hexec : exec env pc s = some (pc', s')) (hi : i ∈ s.live) : s'.home i = s.home i ∨
      pc = .migration ∧ s'.stage i = .waiting ∨ pc = .placement ∧ s.stage i ≠ .settled := by
  have hlive := h.live hpc
  cases exec_stmt hexec with
  | build hbare => rw [hpc] at hbare; cases hbare
  | force hbuilt => rw [hpc] at hbuilt; cases hbuilt
  | quiet _ _ hq => exact Or.inl (stage_of_quiet hq i).1
  | free => exact absurd rfl hfree
  | migrate hm =>
    rcases (updateMigrationStatus_rearrange hlive hm).irq_cases i with e | ⟨-, hhome⟩
    · exact Or.inl (home_eq_of_irqs e)
    · exact Or.inr (Or.inl ⟨rfl, stage_waiting.2 hhome⟩)
  | place hp =>
    by_cases hs : s.stage i = .settled
    · exact Or.inl (home_eq_of_irqs (calculatePlacement_settled hlive hp hi hs))
    · exact Or.inr (Or.inr ⟨rfl, hs⟩)
  | activate ha => exact Or.inl (hlive.activateMappings_irqs ha hi.1).1

/-- **The life of an irq.** Behind the filing of the irqs and up to the next rebuild every statement of a run takes
every balanced irq along, and it moves one that is settled only into `rebalance_irq_list`; and the irqs whose masks
are written are those that are settled. -/
theorem lifecycle (h : Reach anyStep pc s) (hpc : pc.phase = .live) (hfree : pc ≠ .freeTree)
    (hexec : exec env pc s = some (pc', s')) (hi : i ∈ s.live) :
    Advance pc (s.stage i) (s'.stage i) ∧
    (s'.home i = s.home i ∨ pc = .migration ∧ s'.stage i = .waiting ∨ pc = .placement ∧ s.stage i ≠ .settled) ∧
    (pc = .activation → (s.number i ∈ (affinityWrites env.procIrq s).map Prod.fst ↔
      s.stage i = .placed ∧ s'.stage i = .settled)) := by
  refine ⟨(h.advance hpc hfree hexec).2 i hi, h.home_cases hpc hfree hexec hi, ?_⟩
  rintro rfl
  exact (h.live hpc).written_iff (map_goto hexec).2 hi.1

/-- In the second cycle on three cpus the irq 14 has got a new cpu, whose mask is written. -/
theorem lifecycle_threeCpus : ∃ s s', exec skewedEnv .activation s = some (.countCycle, s') ∧ s.number 4 = 14 ∧
    14 ∈ (affinityWrites skewedEnv.procIrq s).map Prod.fst ∧ s.stage 4 = .placed ∧ s'.stage 4 = .settled := by
  have hrun : (execs (List.replicate 15 quietEnv ++ List.replicate 5 skewedEnv)
      (.start, State.initial {} fun _ => 0)).bind (fun r => (exec skewedEnv r.1 r.2).map fun r' =>
        (r.1, r'.1, [decide (4 ∈ r.2.interruptsDb), decide ((r.2.irqs 4).level ≠ .none), decide (r.2.number 4 = 14),
          decide (14 ∈ (affinityWrites skewedEnv.procIrq r.2).map Prod.fst)])) =
      some (.activation, .countCycle, [true, true, true, true]) := by
    decide +kernel
  obtain ⟨⟨pc, s⟩, hr, hrun⟩ := Option.bind_eq_some_iff.1 hrun
  obtain ⟨⟨pc', s'⟩, hexec, e⟩ := Option.map_eq_some_iff.1 hrun
  simp only [Prod.mk.injEq, List.cons.injEq, decide_eq_true_eq] at e
  obtain ⟨rfl, rfl, hdb, hlevel, hnumber, hwritten, -⟩ := e
  have hlife := lifecycle ((Reach.init {} (fun _ => 0) rfl).execs_any hr) rfl
    (show Pc.activation ≠ .freeTree by decide) hexec ⟨hdb, hlevel⟩
  rw [hnumber] at hlife
  exact ⟨s, s', hexec, hnumber, hwritten, (hlife.2.2 rfl).1 hwritten⟩

/-! ### Counting -/

/-- How often a number has been queued and written. -/
structure Tally where
  queued : ℕ := 0
  written : ℕ := 0

/-- How many irqs with the number `n` have come to `rebalance_irq_list`. -/
def newlyQueued (n : ℤ) (s s' : State) : ℕ :=
  (s'.rebalanceIrqList.filter fun i => s'.number i = n ∧ i ∉ s.rebalanceIrqList).length

/-- How often the statement writes the mask of the number `n`. -/
def writesOf (n : ℤ) (env : Env) (pc : Pc) (s : State) : ℕ :=
  if pc = .activation then ((affinityWrites env.procIrq s).map Prod.fst).count n else 0

/-- Count what the statement does with the number `n`. -/
def Tally.count (n : ℤ) (env : Env) (pc : Pc) (s s' : State) (r : Tally) : Tally where
  queued := r.queued + newlyQueued n s s'
  written := r.written + writesOf n env pc s

/-- One event of a run, with the tally of the number `n`. -/
def tallyEvent (n : ℤ) (r : Tally × Pc × State) : Event → Option (Tally × Pc × State)
  | .stmt env => (exec env r.2.1 r.2.2).map fun next => (r.1.count n env r.2.1 r.2.2 next.2, next)
  | .hup => if r.2.1 = .start then none else some (r.1, r.2.1, forceRescan r.2.2)

/-- A run of `main` from its start, with the tally of the number `n`. -/
def tally (n : ℤ) (opts : Options) (smpAffinity : ℤ → Cpumask) (events : List Event) :
    Option (Tally × Pc × State) :=
  events.foldlM (tallyEvent n) ({}, .start, State.initial opts smpAffinity)

/-- There is an irq with the number `n` that is not settled. -/
def State.Unsettled (s : State) (n : ℤ) : Prop := ∃ i ∈ s.live, s.number i = n ∧ s.stage i ≠ .settled

/-- No number is written more often than it was queued, and one less while it is not settled. -/
def Tally.Balanced (r : Tally) (n : ℤ) (pc : Pc) (s : State) : Prop :=
  r.written ≤ r.queued ∧ (pc.phase = .live → s.Unsettled n → r.written < r.queued)

theorem newlyQueued_pos (hi : i ∈ s'.rebalanceIrqList) (hnumber : s'.number i = n) (hnew : i ∉ s.rebalanceIrqList) :
    0 < newlyQueued n s s' :=
  List.length_pos_of_mem (List.mem_filter.2 ⟨hi, by simp [hnumber, hnew]⟩)

theorem Live.waiting_iff (h : Live s) : i ∈ s.rebalanceIrqList ↔ i ∈ s.live ∧ s.stage i = .waiting := by
  rw [stage_waiting]
  exact h.mem_slot (none_mem_slots s)

/-- An irq that a statement leaves unsettled was so before, or it is queued. -/
theorem State.Unsettled.cases (h : Reach anyStep pc s) (hpc : pc.phase = .live) (hpc' : pc'.phase = .live)
    (hfree : pc ≠ .freeTree) (hexec : exec env pc s = some (pc', s')) (hs : s'.Unsettled n) :
    s.Unsettled n ∨ 0 < newlyQueued n s s' := by
  obtain ⟨i, hi', hnumber, hstage⟩ := hs
  obtain ⟨hstatic, hadvance⟩ := h.advance hpc hfree hexec
  have hi : i ∈ s.live := by rwa [live_of_static hstatic] at hi'
  by_cases hs : s.stage i = .settled
  · right
    have hwaiting : s'.stage i = .waiting := by
      have ha := hadvance i hi
      rw [hs] at ha
      generalize s'.stage i = b at ha hstage
      cases ha with
      | stay => exact absurd rfl hstage
      | select => rfl
    refine newlyQueued_pos (((h.exec_any hexec).live hpc').waiting_iff.2 ⟨hi', hwaiting⟩) hnumber fun hmem => ?_
    rw [((h.live hpc).waiting_iff.1 hmem).2] at hs
    cases hs
  · exact Or.inl ⟨i, hi, by rwa [number_of_static hstatic] at hnumber, hs⟩

/-- A statement writes the mask of a number at most once, and then an irq with this number was not settled and is. -/
theorem Reach.writesOf_le (h : Reach anyStep pc s) (hexec : exec env pc s = some (pc', s')) :
    writesOf n env pc s = 0 ∨ writesOf n env pc s = 1 ∧ pc.phase = .live ∧ s.Unsettled n ∧ ¬s'.Unsettled n := by
  unfold writesOf
  split_ifs with hpc
  · subst hpc
    have hlive := h.live rfl
    have ha := (map_goto hexec).2
    have hnd := hlive.writtenNumbers_nodup ha
    by_cases hmem : n ∈ (affinityWrites env.procIrq s).map Prod.fst
    · right
      refine ⟨List.count_eq_one_of_mem hnd hmem, rfl, ?_⟩
      obtain ⟨w, hw, rfl⟩ := List.mem_map.1 hmem
      obtain ⟨i, hi, hnumber, -⟩ := mem_affinityWrites hlive hw
      rw [hnumber] at hmem ⊢
      obtain ⟨hplaced, hsettled⟩ := (hlive.written_iff ha hi).1 hmem
      have hi' : i ∈ s.live := by
        refine ⟨hi, fun hl => (stage_placed.1 hplaced).1 (hlive.unplaced i hi hl)⟩
      refine ⟨⟨i, hi', rfl, by rw [hplaced]; decide⟩, ?_⟩
      rintro ⟨j, hj, hj', hstage⟩
      have hstatic := static_of_unactivated (activateMappings_unactivated ha)
      rw [live_of_static hstatic] at hj
      rw [number_of_static hstatic] at hj'
      rw [hlive.db.eq_of_number hj.1 hi hj'] at hstage
      exact hstage hsettled
    · exact Or.inl (List.count_eq_zero.2 hmem)
  · exact Or.inl rfl

/-- An irq that is filed is queued. -/
theorem State.Unsettled.of_built (h : Built s) (hs : (s.file s.interruptsDb).Unsettled n) :
    0 < newlyQueued n s (s.file s.interruptsDb) := by
  obtain ⟨i, hi, hnumber, -⟩ := hs
  have hnew : (s.file s.interruptsDb).home i = none := (h.isNew i hi.1).assignedObj
  refine newlyQueued_pos (h.live.waiting_iff.2 ⟨hi, stage_waiting.2 hnew⟩) hnumber ?_
  rw [h.rebalanceIrqList]
  exact List.not_mem_nil

/-- **One statement keeps the tally balanced.** -/
theorem Tally.Balanced.stmt {r : Tally} (h : r.Balanced n pc s) (hreach : Reach anyStep pc s)
    (hexec : exec env pc s = some (pc', s')) : (r.count n env pc s s').Balanced n pc' s' := by
  obtain ⟨hle, hlt⟩ := h
  unfold Tally.count
  refine ⟨?_, fun hpc' hs' => ?_⟩ <;> dsimp only
  · rcases hreach.writesOf_le hexec (n := n) with hw | ⟨hw, hpc, hs, -⟩
    · omega
    · have hless := hlt hpc hs
      omega
  rcases hreach.writesOf_le hexec (n := n) with hw | ⟨-, -, -, hs⟩
  · cases hstmt : pc.phase with
    | live =>
      by_cases hfree : pc = .freeTree
      · subst hfree
        cases hexec
        cases hpc'
      · rcases hs'.cases hreach hstmt hpc' hfree hexec with hs | hq
        · have hless := hlt hstmt hs
          omega
        · omega
    | built =>
      have hs := hreach.holds
      rw [hstmt] at hs
      cases exec_stmt hexec with
      | force _ _ hf =>
        rw [Built.force hs hf] at hs' ⊢
        have hq := hs'.of_built hs
        omega
      | build hbare => rw [hstmt] at hbare; cases hbare
      | quiet hlive => rw [hstmt] at hlive; cases hlive
      | free | migrate | place | activate => cases hstmt
    | bare =>
      cases exec_stmt hexec with
      | build _ hnext => rcases hnext with ⟨hnext, -⟩ | hnext <;> rw [hnext] at hpc' <;> cases hpc'
      | force hbuilt => rw [hstmt] at hbuilt; cases hbuilt
      | quiet hlive => rw [hstmt] at hlive; cases hlive
      | free | migrate | place | activate => cases hstmt
    | ended =>
      cases pc with
      | done => cases hexec
      | _ => cases hstmt
  · exact absurd hs' hs

/-- **No irq is written more often than it is queued**: in every run, for every number. -/
theorem writes_le_queued (n : ℤ) (opts : Options) (smpAffinity : ℤ → Cpumask) (events : List Event)
    (r : Tally × Pc × State) (hopts : opts.numaAvail = false) (h : tally n opts smpAffinity events = some r) :
    r.1.written ≤ r.1.queued := by
  suffices Reach anyStep r.2.1 r.2.2 ∧ r.1.Balanced n r.2.1 r.2.2 from this.2.1
  refine Loops.foldlM_inv (fun r : Tally × Pc × State => Reach anyStep r.2.1 r.2.2 ∧ r.1.Balanced n r.2.1 r.2.2) ?_
    ⟨.init opts smpAffinity hopts, le_rfl, fun hpc => by cases hpc⟩ h
  rintro e - ⟨r, pc, s⟩ r' ⟨hreach, hbalanced⟩ hevent
  cases e with
  | stmt env =>
    obtain ⟨next, hexec, rfl⟩ := Option.map_eq_some_iff.1 hevent
    exact ⟨hreach.exec_any hexec, hbalanced.stmt hreach hexec⟩
  | hup =>
    unfold tallyEvent at hevent
    dsimp only at hevent
    split_ifs at hevent with hpc
    cases hevent
    refine ⟨hreach.hup hpc, hbalanced.1, fun hlive ⟨i, hi, hnumber, hstage⟩ => hbalanced.2 hlive ⟨i, ?_, ?_, ?_⟩⟩
    · rwa [live_of_static (static_of_quiet (forceRescan_quiet s))] at hi
    · rwa [number_of_static (static_of_quiet (forceRescan_quiet s))] at hnumber
    · rwa [(stage_of_quiet (forceRescan_quiet s) i).2] at hstage

/-- Two cycles on three cpus: the irq 14 is queued when it is found, and when its cpu is overloaded. -/
theorem writes_le_queued_threeCpus : ∃ r pc s, tally 14 {} (fun _ => 0) ((List.replicate 15 quietEnv ++
    List.replicate 6 skewedEnv).map .stmt) = some (r, pc, s) ∧ r.written = 2 ∧ r.queued = 2 ∧
    r.written ≤ r.queued := by
  have hrun : (tally 14 {} (fun _ => 0) ((List.replicate 15 quietEnv ++ List.replicate 6 skewedEnv).map .stmt)).map
      (fun r => (r.1.written, r.1.queued)) = some (2, 2) := by
    decide +kernel
  obtain ⟨⟨r, pc, s⟩, h, e⟩ := Option.map_eq_some_iff.1 hrun
  obtain ⟨hwritten, hqueued⟩ := Prod.mk.inj e
  exact ⟨r, pc, s, h, hwritten, hqueued, writes_le_queued 14 {} (fun _ => 0) _ (r, pc, s) rfl h⟩

end IrqBalance
