import IrqBalance.MainLoop

/-!
# The kernel follows the assignment

`State.target` is the mask that an irq on an object is meant to have. When the kernel accepts all
accesses, every `activate_mappings` brings the masks of all assigned irqs to their targets.

`activate_mapping` passes over irqs that have not moved, so this rests on an invariant of runs
(`Synced`): the mask of an irq whose `moved` is 0 is up to date.
-/

namespace IrqBalance

variable {s s' : State} {i : IrqId} {o : ObjId}

/-- The mask that the irq is meant to have on the object, if its hint allows any: a non-empty hint
counts by its policy. -/
def State.target (s : State) (i : IrqId) (o : ObjId) : Option Cpumask :=
  let hint := (s.irqs i).affinityHint
  let mask := (s.objs o).mask
  if hint = 0 then some mask
  else match (s.irqs i).hintPolicy with
    | .ignore => some mask
    | .exact => if hint &&& s.bannedCpus = 0 then some hint else none
    | .subset => if mask &&& hint &&& s.unbannedCpus = 0 then none else some (mask &&& hint)

theorem appliedMask_eq_target (ho : (s.irqs i).assignedObj = some o) :
    appliedMask s (s.irqs i) = s.target i o := by
  unfold appliedMask State.target IrqInfo.hasHint cpusIntersects cpusEmpty
  rw [ho]
  by_cases hhint : (s.irqs i).affinityHint = 0
  · simp [hhint]
  · cases hpolicy : (s.irqs i).hintPolicy <;> simp

theorem target_of_static (e : s'.static = s.static) : s'.target = s.target := by
  have htarget : ∀ t : State, t.static.target = t.target := fun _ => rfl
  rw [← htarget s', e, htarget]

/-- The kernel has the right mask for every assigned irq whose `moved` is 0. -/
def Synced (s : State) : Prop :=
  ∀ i ∈ s.interruptsDb, (s.irqs i).moved = false → ∀ o, (s.irqs i).assignedObj = some o →
    ∀ m, s.target i o = some m → s.smpAffinity (s.number i) = m

/-! ### Moving irqs -/

theorem unmoved_smpAffinity (e : s'.unmoved = s.unmoved) : s'.smpAffinity = s.smpAffinity :=
  show s'.unmoved.smpAffinity = s.unmoved.smpAffinity by rw [e]

/-- Whoever changes `assigned_obj` sets `moved`. -/
theorem Synced.congr (h : Synced s) (e : s'.static = s.static)
    (haffinity : s'.smpAffinity = s.smpAffinity)
    (hirqs : ∀ i, (s'.irqs i).moved = false →
      (s.irqs i).moved = false ∧ (s'.irqs i).assignedObj = (s.irqs i).assignedObj) : Synced s' := by
  intro i hi hm o ho m ht
  obtain ⟨hm', ho'⟩ := hirqs i hm
  rw [interruptsDb_of_static e] at hi
  rw [ho'] at ho
  rw [target_of_static e] at ht
  rw [haffinity, number_of_static e]
  exact h i hi hm' o ho m ht

theorem Rearrange.synced {D : Set (Option ObjId)} (hr : Rearrange D s s') (h : Synced s) : Synced s' := by
  induction hr with
  | refl => exact h
  | @move t u i dst _ _ _ _ hm ih =>
    refine ih.congr hm.static_eq (unmoved_smpAffinity hm.unmoved_eq) fun j hj => ?_
    by_cases hji : j = i
    · rw [hji, hm.irqs_self] at hj
      cases hj
    · rw [hm.irqs_of_ne hji] at hj ⊢
      exact ⟨hj, rfl⟩
  | @sort t a _ _ ih =>
    have hirqs : (sortIrqList a t).irqs = t.irqs := State.setSlot_irqs ..
    refine ih.congr (static_sortIrqList a t) (unmoved_smpAffinity (setSlot_unmoved ..)) fun j hj => ?_
    rw [hirqs] at hj ⊢
    exact ⟨hj, rfl⟩
  | sleep _ _ _ ih => exact ih.congr (sleep_static ..) rfl fun j hj => ⟨hj, rfl⟩

theorem Synced.of_quiet (h : Synced s) (e : s'.quiet = s.quiet) : Synced s' := by
  have hirq : ∀ i, (s'.irqs i).noStats = (s.irqs i).noStats := fun i =>
    show s'.quiet.irqs i = s.quiet.irqs i by rw [e]
  refine h.congr (static_of_quiet e) (show s'.quiet.smpAffinity = s.quiet.smpAffinity by rw [e])
    fun i hi => ⟨?_, ?_⟩
  · have hmoved : (s'.irqs i).noStats.moved = (s.irqs i).noStats.moved := by rw [hirq i]
    exact hmoved.symm.trans hi
  · have hobj : (s'.irqs i).noStats.assignedObj = (s.irqs i).noStats.assignedObj := by rw [hirq i]
    exact hobj

theorem Built.synced (h : Built s) : Synced (s.file s.interruptsDb) := by
  intro i hi _ o ho
  have hnone : ((s.file s.interruptsDb).irqs i).assignedObj = none := (h.isNew i hi).assignedObj
  rw [hnone] at ho
  cases ho

/-! ### Activating -/

/-- `activate_mapping` writes at most the mask of its own irq. -/
theorem activateMapping_smpAffinity_of_ne {env : ProcIrq} {j : IrqId} (h : activateMapping env j s = some s')
    (hj : s.number i ≠ s.number j) :
    s'.smpAffinity (s.number i) = s.smpAffinity (s.number i) := by
  have hne : s.number i ≠ (s.irqs j).irq := hj
  unfold activateMapping at h
  dsimp only at h
  split at h <;> cases h
  · rfl
  · simp [State.modIrq, hne]

theorem activateMapping_irqs_of_ne {env : ProcIrq} {j : IrqId} (h : activateMapping env j s = some s')
    (hij : i ≠ j) : s'.irqs i = s.irqs i := by
  unfold activateMapping at h
  dsimp only at h
  split at h <;> cases h <;> simp [State.modIrq, hij]

theorem writtenMask_unassigned {env : ProcIrq} (ho : (s.irqs i).assignedObj = none) :
    writtenMask env s i = none := by
  unfold writtenMask
  dsimp only
  rw [ho]
  cases appliedMask s (s.irqs i) <;> simp

/-- A mask is written for an irq that has moved and is assigned, when the kernel has another mask. -/
theorem writtenMask_eq_some_iff {env : ProcIrq} (ho : (s.irqs i).assignedObj = some o)
    {m : Cpumask} : writtenMask env s i = some m ↔
      (s.irqs i).moved = true ∧ s.target i o = some m ∧ env.readable (s.number i) = true ∧
        env.writable (s.number i) = true ∧ m ≠ s.smpAffinity (s.number i) := by
  unfold writtenMask checkAffinity State.number
  dsimp only
  rw [appliedMask_eq_target ho, ho]
  cases s.target i o with
  | none => simp
  | some m' =>
    by_cases heq : m' = s.smpAffinity (s.irqs i).irq
    · simp only [heq, Option.some.injEq, decide_true, Bool.or_true, if_true, ite_self]
      exact iff_of_false (Option.some_ne_none m).symm fun h => h.2.2.2.2 h.2.1.symm
    · have hkeep : m' = m ↔ m' = m ∧ m ≠ s.smpAffinity (s.irqs i).irq :=
        ⟨fun e => ⟨e, e ▸ heq⟩, And.left⟩
      cases (s.irqs i).moved <;> cases env.readable (s.irqs i).irq <;>
        cases env.writable (s.irqs i).irq <;> simp [heq, ← hkeep]

/-- With every access allowed, `activate_mapping` brings the mask of an assigned irq that has moved to
its target, and leaves the mask as it is when there is no target. -/
theorem activateMapping_self {env : ProcIrq} (hread : ∀ n, env.readable n = true)
    (hwrite : ∀ n, env.writable n = true) (ho : (s.irqs i).assignedObj = some o)
    (hsynced : (s.irqs i).moved = false → ∀ m, s.target i o = some m →
      s.smpAffinity (s.number i) = m)
    (h : activateMapping env i s = some s') :
    s'.smpAffinity (s.number i) = (s.target i o).getD (s.smpAffinity (s.number i)) := by
  unfold activateMapping at h
  dsimp only at h
  cases hw : writtenMask env s i with
  | none =>
    rw [hw] at h
    cases h
    change s.smpAffinity (s.number i) = _
    cases htarget : s.target i o with
    | none => rfl
    | some m =>
      -- the irq has not moved, or the mask is the target already
      by_contra hne
      by_cases hmoved : (s.irqs i).moved = false
      · exact hne (hsynced hmoved m htarget)
      · rw [(writtenMask_eq_some_iff ho).2 ⟨by simpa using hmoved, htarget, hread _, hwrite _,
          fun e => hne e.symm⟩] at hw
        cases hw
  | some mask =>
    rw [hw] at h
    cases h
    rw [((writtenMask_eq_some_iff ho).1 hw).2.1]
    simp [State.modIrq, State.number]

/-- What holds of an irq between its call and the end of the walk. -/
def AtTarget (s t : State) (i : IrqId) : Prop :=
  ∀ o, (s.irqs i).assignedObj = some o →
    t.smpAffinity (s.number i) = (s.target i o).getD (s.smpAffinity (s.number i))

theorem interruptsDb_of_unactivated (e : s'.unactivated = s.unactivated) :
    s'.interruptsDb = s.interruptsDb :=
  interruptsDb_of_static (static_of_unactivated e)

theorem number_of_unactivated (e : s'.unactivated = s.unactivated) : s'.number = s.number :=
  number_of_static (static_of_unactivated e)

theorem activateMapping_unlinksSelf (env : ProcIrq) (s : State) :
    Loops.UnlinksSelf (fun t => t.unactivated = s.unactivated) State.interruptsDb
      (activateMapping env) := by
  intro i t u ht _ hu
  have e := activateMapping_unactivated hu
  exact ⟨e.trans ht, Or.inl (interruptsDb_of_unactivated e)⟩

theorem Live.nodup_of_unactivated (h : Live s) {t : State} (ht : t.unactivated = s.unactivated) :
    t.interruptsDb.Nodup := by
  rw [interruptsDb_of_unactivated ht]
  exact h.db.interruptsDb_nodup

/-- The walk leaves the record and the mask of an irq alone, except in the call on the irq. -/
theorem Live.activateMapping_frame (h : Live s) {env : ProcIrq} {j : IrqId} {t u : State}
    (hij : i ≠ j) (ht : t.unactivated = s.unactivated) (hi : i ∈ s.interruptsDb)
    (hj : j ∈ t.interruptsDb) (hu : activateMapping env j t = some u) :
    u.irqs i = t.irqs i ∧ u.smpAffinity (s.number i) = t.smpAffinity (s.number i) := by
  refine ⟨activateMapping_irqs_of_ne hu hij, ?_⟩
  rw [← number_of_unactivated ht]
  apply activateMapping_smpAffinity_of_ne hu
  intro e
  apply hij
  rw [number_of_unactivated ht] at e
  exact h.db.eq_of_number hi (interruptsDb_of_unactivated ht ▸ hj) e

/-- The writes of `activate_mappings`: the number of an irq and the mask. -/
def affinityWrites (env : ProcIrq) (s : State) : List (ℤ × Cpumask) :=
  (forEachIrqCalls id State.interruptsDb (activateMapping env) s).filterMap fun c =>
    (writtenMask env c.2 c.1).map fun mask => ((c.2.irqs c.1).irq, mask)

/-- Every write is made for an irq of the database with the record that it has at the start. -/
theorem mem_affinityWrites (hlive : Live s) {env : ProcIrq} {w : ℤ × Cpumask}
    (hw : w ∈ affinityWrites env s) :
    ∃ i ∈ s.interruptsDb, w.1 = s.number i ∧ writtenMask env s i = some w.2 := by
  obtain ⟨⟨i, t⟩, hc, hw⟩ := List.mem_filterMap.1 hw
  obtain ⟨m, hm, rfl⟩ := Option.map_eq_some_iff.1 hw
  have hcalls : (i, t) ∈ Loops.calls State.interruptsDb (activateMapping env) s := by
    unfold forEachIrqCalls at hc
    simpa using hc
  obtain ⟨ht, hit⟩ := Loops.mem_calls (fun _ ht => hlive.nodup_of_unactivated ht)
    (activateMapping_unlinksSelf env s) rfl (i, t) hcalls
  have hi : i ∈ s.interruptsDb := interruptsDb_of_unactivated ht ▸ hit
  obtain ⟨-, hirq, hmask⟩ := Loops.mem_calls_each (fun _ ht => hlive.nodup_of_unactivated ht)
    (activateMapping_unlinksSelf env s)
    (fun i t => i ∈ s.interruptsDb ∧ t.irqs i = s.irqs i ∧
      t.smpAffinity (s.number i) = s.smpAffinity (s.number i))
    (by
      rintro i j t u hij ht hj ⟨hi, hirq, hmask⟩ hu
      obtain ⟨hirq', hmask'⟩ := hlive.activateMapping_frame hij ht hi hj hu
      exact ⟨hi, hirq'.trans hirq, hmask'.trans hmask⟩) rfl (fun i hi => ⟨hi, rfl, rfl⟩) (i, t) hcalls
  refine ⟨i, hi, by rw [hirq]; rfl, ?_⟩
  cases ho : (s.irqs i).assignedObj with
  | none =>
    have hnone : writtenMask env t i = none := writtenMask_unassigned (by rw [hirq]; exact ho)
    rw [hnone] at hm
    cases hm
  | some o =>
    rw [writtenMask_eq_some_iff (by rw [hirq]; exact ho), hirq, number_of_unactivated ht, hmask,
      target_of_static (static_of_unactivated ht), ← writtenMask_eq_some_iff ho] at hm
    exact hm

/-- **`activate_mappings` brings every assigned irq to its target.** -/
theorem activateMappings_target {env : ProcIrq} (hread : ∀ n, env.readable n = true)
    (hwrite : ∀ n, env.writable n = true) (hlive : Live s) (hsynced : Synced s)
    (h : activateMappings env s = some s') : ∀ i ∈ s.interruptsDb, AtTarget s s' i := by
  have hwalk : Loops.walk State.interruptsDb (activateMapping env) s = some s' := by
    unfold activateMappings forEachIrq forEachIrqOn at h
    simpa using h
  have heach := Loops.walk_each (fun _ ht => hlive.nodup_of_unactivated ht)
    (activateMapping_unlinksSelf env s)
    (fun i t => i ∈ s.interruptsDb ∧ t.irqs i = s.irqs i ∧
      t.smpAffinity (s.number i) = s.smpAffinity (s.number i))
    (fun i t => i ∈ s.interruptsDb ∧ AtTarget s t i) ?_ ?_ ?_ rfl (fun i hi => ⟨hi, rfl, rfl⟩) hwalk
  · exact fun i hi => (heach i hi).2
  · rintro i j t u hij ht hj ⟨hi, hirq, hmask⟩ hu
    obtain ⟨hirq', hmask'⟩ := hlive.activateMapping_frame hij ht hi hj hu
    exact ⟨hi, hirq'.trans hirq, hmask'.trans hmask⟩
  · rintro i t u ht hit ⟨hi, hirq, hmask⟩ hu
    refine ⟨hi, fun o ho => ?_⟩
    have htarget : t.target i o = s.target i o := by
      rw [target_of_static (static_of_unactivated ht)]
    have hself := activateMapping_self hread hwrite (by rw [hirq]; exact ho) (fun hm m htgt => ?_) hu
    · rw [htarget, number_of_unactivated ht, hmask] at hself
      exact hself
    · rw [hirq] at hm
      rw [htarget] at htgt
      rw [number_of_unactivated ht, hmask]
      exact hsynced i hi hm o ho m htgt
  · rintro i j t u hij ht hj ⟨hi, hq⟩ hu
    exact ⟨hi, fun o ho => (hlive.activateMapping_frame hij ht hi hj hu).2.trans (hq o ho)⟩

theorem activateMappings_synced {env : ProcIrq} (hread : ∀ n, env.readable n = true)
    (hwrite : ∀ n, env.writable n = true) (hlive : Live s) (hsynced : Synced s)
    (h : activateMappings env s = some s') : Synced s' := by
  have e := activateMappings_unactivated h
  have hstatic := static_of_unactivated e
  intro i hi _ o ho m hm
  rw [interruptsDb_of_static hstatic] at hi
  have hhome : s.home i = some o := by rw [← home_of_unactivated e]; exact ho
  rw [target_of_static hstatic] at hm
  rw [number_of_static hstatic, activateMappings_target hread hwrite hlive hsynced h i hi o hhome, hm]
  rfl

/-! ### Runs -/

/-- Every statement `activate_mappings` can read and write all masks. -/
def affinityAccepted (env : Env) (pc : Pc) (_ : State) : Prop :=
  pc = .activation → ∀ n, env.procIrq.readable n = true ∧ env.procIrq.writable n = true

theorem Reach.synced {pc : Pc} (h : Reach affinityAccepted pc s) (hpc : pc.phase = .live) :
    Synced s :=
  h.live_inv Synced (fun _ hs => hs.synced) (fun _ _ _ hs e => hs.of_quiet e)
    (fun _ _ _ _ hlive hs hm => (updateMigrationStatus_rearrange hlive hm).synced hs)
    (fun _ _ _ _ hlive hs hp => (calculatePlacement_rearrange hlive hp).synced hs)
    (fun _ _ _ hA hlive hs ha =>
      activateMappings_synced (fun n => (hA rfl n).1) (fun n => (hA rfl n).2) hlive hs ha) hpc

/-- **After every `activate_mappings` of every run the kernel has the target mask of every assigned
irq, and where there is no target it has the mask that it had before.** -/
theorem smpAffinity_eq_target (h : Reach affinityAccepted .activation s) {env : Env}
    (hA : affinityAccepted env .activation s) (ha : activateMappings env.procIrq s = some s')
    (hi : i ∈ s'.interruptsDb) (ho : (s'.irqs i).assignedObj = some o) :
    s'.smpAffinity (s'.irqs i).irq = (s'.target i o).getD (s.smpAffinity (s'.irqs i).irq) := by
  have e := activateMappings_unactivated ha
  have hstatic := static_of_unactivated e
  rw [interruptsDb_of_static hstatic] at hi
  have hhome : s.home i = some o := by rw [← home_of_unactivated e]; exact ho
  have hnumber : (s'.irqs i).irq = s.number i := congrFun (number_of_static hstatic) i
  rw [hnumber, target_of_static hstatic]
  exact activateMappings_target (fun n => (hA rfl n).1) (fun n => (hA rfl n).2) (h.live rfl)
    (h.synced rfl) ha i hi o hhome

/-- The first cycle on two cpus. -/
theorem smpAffinity_eq_target_twoCpus : ∃ s s' i o,
    execs (List.replicate 11 twoCpusEnv) (.start, State.initial {} fun _ => 0) =
      some (.activation, s) ∧
    activateMappings twoCpusEnv.procIrq s = some s' ∧ i ∈ s'.interruptsDb ∧
    (s'.irqs i).assignedObj = some o ∧
    s'.smpAffinity (s'.irqs i).irq = (s'.target i o).getD (s.smpAffinity (s'.irqs i).irq) := by
  have hrun : ((execs (List.replicate 11 twoCpusEnv) (.start, State.initial {} fun _ => 0)).bind
      fun r => (activateMappings twoCpusEnv.procIrq r.2).map fun s' =>
        (r.1, s'.interruptsDb, (s'.irqs 0).assignedObj)) = some (.activation, [0], some 1) := by
    decide +kernel
  obtain ⟨⟨pc, s⟩, hr, hrun⟩ := Option.bind_eq_some_iff.1 hrun
  obtain ⟨s', ha, e⟩ := Option.map_eq_some_iff.1 hrun
  simp only [Prod.mk.injEq] at e
  obtain ⟨rfl, hdb, hobj⟩ := e
  have hi : 0 ∈ s'.interruptsDb := by rw [hdb]; exact List.mem_singleton_self 0
  exact ⟨s, s', 0, 1, hr, ha, hi, hobj, smpAffinity_eq_target
    ((Reach.init {} (fun _ => 0) rfl).execs .activation (fun _ _ _ _ hpc h => absurd h hpc)
      (by decide +kernel) hr) (fun _ _ => ⟨rfl, rfl⟩) ha hi hobj⟩

end IrqBalance
