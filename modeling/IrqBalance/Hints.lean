import IrqBalance.Affinity
import IrqBalance.BannedCpus
import IrqBalance.Powersave

/-!
# Affinity hints

An irq with a SUBSET hint goes only to objects that have a cpu of the hint. `find_best_object` tests this at every
level of the tree, and nothing that moves an irq later looks at hints, so it is an invariant of all runs
(`Reach.hintsMet`). With it the mask that is written is always a part of the hint; a part with banned cpus only is
not written.
-/

namespace IrqBalance

variable {s s' : State} {i : IrqId} {o d : ObjId} {pc : Pc} {env : ProcIrq} {m : Cpumask}

/-- Every balanced irq that has an object has one that its SUBSET hint does not miss. -/
def HintsMet (s : State) : Prop :=
  ∀ i ∈ s.live, ∀ o, s.home i = some o → ¬HintMisses s i o

/-- The invariant looks at the homes, and at what no statement of the loop changes. -/
theorem HintsMet.congr (h : HintsMet s) (e : s'.static = s.static)
    (hhome : ∀ i o, s'.home i = some o → s.home i = some o) : HintsMet s' := by
  intro i hi o ho
  rw [live_of_static e] at hi
  rw [hintMisses_of_static e]
  exact h i hi o (hhome i o ho)

theorem not_hintMisses_of_eligible (h : ineligible s i o = false) : ¬HintMisses s i o := by
  rintro ⟨hhint, hnone⟩
  unfold ineligible at h
  simp [hhint, cpusEmpty, hnone] at h

/-- Moving an irq to an object that may be chosen. -/
theorem HintsMet.moved (h : HintsMet s) (ho : ineligible s i o = false) (hm : Moved i (some o) s s') :
    HintsMet s' := by
  intro j hj p hp
  rw [live_of_static hm.static_eq] at hj
  rw [hintMisses_of_static hm.static_eq]
  rw [hm.home_eq] at hp
  by_cases hji : j = i
  · subst hji
    rw [Function.update_self, Option.some.injEq] at hp
    subst hp
    exact not_hintMisses_of_eligible ho
  · rw [Function.update_of_ne hji] at hp
    exact h j hj p hp

theorem hintsMet_kept : KeptByPlacing HintsMet where
  toNode := by
    intro i t u hlive _ hi h hu
    rcases placeIrqInNode_cases hlive hi hu with ⟨rfl, -⟩ | ⟨hin, hm⟩
    · exact h
    · exact h.moved hin hm
  down := by
    intro d i t u hlive ha hi h hu
    rcases findBestObjectForIrq_cases hlive (some_mem_slots.1 ha) hi hu with ⟨rfl, -⟩ | ⟨c, -, hin, -, hm⟩
    · exact h
    · exact h.moved hin hm

/-- **In every run the irqs are where their SUBSET hints allow.** -/
theorem Reach.hintsMet (h : Reach anyStep pc s) : HintsMet s := by
  refine h.everywhere ?_ ?_ (fun pc s hreach hpc => ?_) ?_
  · intro s hs i hi
    have hnil := hi.1
    rw [hs.interruptsDb] at hnil
    cases hnil
  · intro s hs i hi o ho
    have hnew : s.home i = none := (hs.isNew i hi.1).assignedObj
    rw [hnew] at ho
    cases ho
  · refine hreach.live_inv HintsMet ?_ ?_ ?_ ?_ ?_ hpc
    · intro s hs i hi o ho
      have hnew : (s.irqs i).assignedObj = none := (hs.isNew i hi.1).assignedObj
      have hsome : (s.irqs i).assignedObj = some o := ho
      rw [hnew] at hsome
      cases hsome
    · exact fun s s' _ hs e => hs.congr (static_of_quiet e) fun i o ho => by rwa [home_of_quiet e] at ho
    · intro _ s s' _ hlive hs hu
      have hr := updateMigrationStatus_rearrange hlive hu
      refine hs.congr hr.static_eq fun i o ho => ?_
      rcases hr.home i with e | e
      · exact e.symm.trans ho
      · rw [ho] at e
        cases e
    · intro _ s s' _ hlive hs hp
      exact (hintsMet_kept.calculatePlacement (hs.congr (static_sortIrqList none s) fun i o ho => by
        rwa [sort_home] at ho) hlive).1 s' hp
    · intro _ s s' _ _ hs ha
      have e := activateMappings_unactivated ha
      exact hs.congr (static_of_unactivated e) fun i o ho => by rwa [home_of_unactivated e] at ho
  · exact fun s s' hs e => hs.congr (static_of_quiet e) fun i o ho => by rwa [home_of_quiet e] at ho

/-! ### The masks that are written -/

theorem hasHint_subset_iff {info : IrqInfo} :
    info.hasHint .subset = true ↔ info.hintPolicy = .subset ∧ info.affinityHint ≠ 0 := by
  simp [IrqInfo.hasHint, cpusEmpty]

/-- The target of an irq with a SUBSET hint. -/
theorem target_subset (h : (s.irqs i).hasHint .subset = true) : s.target i o =
    if (s.objs o).mask &&& (s.irqs i).affinityHint &&& s.unbannedCpus = 0 then none
    else some ((s.objs o).mask &&& (s.irqs i).affinityHint) := by
  obtain ⟨hpolicy, hhint⟩ := hasHint_subset_iff.1 h
  unfold State.target
  dsimp only
  rw [if_neg hhint, hpolicy]

/-- A mask without banned cpus has only others. -/
theorem and_not_banned {m banned : Cpumask} (h : m &&& banned = 0) : m &&& ~~~banned = m := by
  apply BitVec.eq_of_getLsbD_eq
  intro j hj
  have hbit : (m.getLsbD j && banned.getLsbD j) = false := by
    rw [← BitVec.getLsbD_and, h]
    exact BitVec.getLsbD_zero
  rw [BitVec.getLsbD_and, BitVec.getLsbD_not, decide_eq_true hj, Bool.true_and]
  cases hm : m.getLsbD j with
  | false => rfl
  | true =>
    rw [hm, Bool.true_and] at hbit
    rw [hbit]
    rfl

/-- Off the node a SUBSET hint that is met can be used. -/
theorem target_subset_eq_none_iff (htopo : TopoWf s) (ho : o ∈ s.topology) (hmet : ¬HintMisses s i o)
    (h : (s.irqs i).hasHint .subset = true) :
    s.target i o = none ↔ o = unspecifiedNode ∧ (s.irqs i).affinityHint &&& s.unbannedCpus = 0 := by
  rw [target_subset h, ite_eq_left_iff]
  by_cases hnode : o = unspecifiedNode
  · subst hnode
    have hall : cpuMaskAll &&& (s.irqs i).affinityHint = (s.irqs i).affinityHint := BitVec.allOnes_and
    rw [htopo.nodeMask, hall]
    simp
  · refine iff_of_false (fun hnone => ?_) fun hn => hnode hn.1
    have hzero : (s.objs o).mask &&& (s.irqs i).affinityHint &&& s.unbannedCpus = 0 :=
      by_contra fun hne => Option.some_ne_none _ (hnone hne)
    -- no cpu of the object is banned
    have hkeep : (s.objs o).mask &&& (s.irqs i).affinityHint &&& s.unbannedCpus =
        (s.irqs i).affinityHint &&& (s.objs o).mask := by
      rw [htopo.unbanned, BitVec.and_comm (s.objs o).mask, BitVec.and_assoc,
        and_not_banned (htopo.banned ho hnode)]
    exact hmet ⟨h, hkeep.symm.trans hzero⟩

/-- What the hint says about the mask that is written. -/
def HintKept (s : State) (i : IrqId) (m : Cpumask) : Prop :=
  ((s.irqs i).hasHint .exact = true → m = (s.irqs i).affinityHint) ∧
    ((s.irqs i).hasHint .subset = true → m ≠ 0 ∧ m &&& (s.irqs i).affinityHint = m)

theorem hintKept_of_target (h : s.target i o = some m) : HintKept s i m := by
  unfold HintKept
  rcases target_cases h with ⟨hexact, -⟩ | ⟨hexact, -, rfl, hmeet⟩ | ⟨hexact, hsubset, -⟩
  · refine ⟨fun _ => ?_, fun hsubset => ?_⟩
    · obtain ⟨hpolicy, hhint⟩ : (s.irqs i).hintPolicy = .exact ∧ (s.irqs i).affinityHint ≠ 0 := by
        simpa [IrqInfo.hasHint, cpusEmpty] using hexact
      unfold State.target at h
      dsimp only at h
      rw [if_neg hhint, hpolicy] at h
      dsimp only at h
      split_ifs at h
      exact (Option.some.inj h).symm
    · rw [IrqInfo.hasHint, Bool.and_eq_true, decide_eq_true_eq] at hexact
      rw [(hasHint_subset_iff.1 hsubset).1] at hexact
      cases hexact.1
  · refine ⟨fun e => absurd (hexact.symm.trans e) (by decide), fun _ => ⟨fun hzero => hmeet ?_, ?_⟩⟩
    · rw [hzero]
      exact BitVec.zero_and
    · rw [BitVec.and_assoc, BitVec.and_self]
  · exact ⟨fun e => absurd (hexact.symm.trans e) (by decide), fun e => absurd (hsubset.symm.trans e) (by decide)⟩

/-- **Hints are kept**: in every state of every run the irqs are on objects that their SUBSET hints meet, and such a
hint can be used there, but for a hint with banned cpus only of an irq on the node. The mask that is written is the
EXACT hint, or a part of the SUBSET hint. -/
theorem hints_kept (pc : Pc) (s : State) (h : Reach anyStep pc s) :
    HintsMet s ∧
    (pc.phase = .live → ∀ i ∈ s.live, ∀ o, s.home i = some o → (s.irqs i).hasHint .subset = true →
      (s.target i o = none ↔ o = unspecifiedNode ∧ (s.irqs i).affinityHint &&& s.unbannedCpus = 0)) ∧
    (pc = .activation → ∀ (env : Env), ∀ w ∈ affinityWrites env.procIrq s, ∃ i ∈ s.interruptsDb,
      w.1 = s.number i ∧ HintKept s i w.2) := by
  refine ⟨h.hintsMet, fun hpc i hi o ho hhint => ?_, ?_⟩
  · have hlive := h.live hpc
    have hhome := hlive.bins.home_mem i hi
    rw [ho] at hhome
    exact target_subset_eq_none_iff hlive.topo (some_mem_slots.1 hhome) (h.hintsMet i hi o ho) hhint
  · rintro rfl env w hw
    have hlive := h.live rfl
    obtain ⟨i, hi, hnumber, hm⟩ := mem_affinityWrites hlive hw
    refine ⟨i, hi, hnumber, ?_⟩
    cases ho : (s.irqs i).assignedObj with
    | none => rw [writtenMask_unassigned ho] at hm; cases hm
    | some o => exact hintKept_of_target ((writtenMask_eq_some_iff ho).1 hm).2.1

/-- The machine with two cpus, and an irq with a hint for the second. -/
def hintedEnv : Env := { twoCpusEnv with irqEnv := { affinityHint := fun _ => some ['2'] } }

theorem hints_kept_twoCpus : ∃ s, (s.irqs 0).hasHint .subset = true ∧ s.home 0 = some 4 ∧ HintsMet s ∧
    affinityWrites hintedEnv.procIrq s = [(10, 2)] ∧ ∀ w ∈ affinityWrites hintedEnv.procIrq s,
      ∃ i ∈ s.interruptsDb, w.1 = s.number i ∧ HintKept s i w.2 := by
  have hrun : (execs (List.replicate 11 hintedEnv)
      (.start, State.initial { globalHintPolicy := .subset } fun _ => 0)).map (fun r =>
        (r.1, (r.2.irqs 0).hasHint .subset, r.2.home 0, affinityWrites hintedEnv.procIrq r.2)) =
      some (.activation, true, some 4, [(10, 2)]) := by
    decide +kernel
  obtain ⟨⟨pc, s⟩, hr, e⟩ := Option.map_eq_some_iff.1 hrun
  simp only [Prod.mk.injEq] at e
  obtain ⟨rfl, hhint, hhome, hwrites⟩ := e
  obtain ⟨hmet, -, hkept⟩ := hints_kept .activation s
    ((Reach.init { globalHintPolicy := .subset } (fun _ => 0) rfl).execs_any hr)
  exact ⟨s, hhint, hhome, hmet, hwrites, hkept rfl hintedEnv⟩

end IrqBalance
