import IrqBalance.Powersave
import IrqBalance.Selection

/-!
# Where a selected irq goes

`move_candidate_irqs` compares with `min_load`, the least load of the flat list of cpus, while
`calculate_placement` chooses a package, then a cache domain and only then a cpu. So a selected irq can get to a
cpu that has more than `min_load` (`migration_reverses`). If it gets to one that has at most `min_load`, the
comparison is worth what it says (`migration_helps`).
-/

namespace IrqBalance

variable {s s' t t' : State} {i : IrqId} {d o A B : ObjId} {e : IrqId × State × LoadBalanceInfo}

/-! ### Assigning an irq -/

theorem migrateIrq_irqLoads (src dst : Option ObjId) (i : IrqId) (s : State) :
    (migrateIrq src dst i s).irqLoads = s.irqLoads := by
  unfold migrateIrq
  dsimp only
  split
  · rfl
  · funext k
    unfold State.irqLoads
    rw [State.modIrq_irqs, State.setSlot_irqs, State.setSlot_irqs]
    split_ifs <;> rfl

/-- The load of the irq is added to the load of its new object. -/
theorem assignIrq_loads (src : Option ObjId) (o : ObjId) (i : IrqId) (s : State) :
    (assignIrq src o i s).loads o = s.loads o + s.irqLoads i := by
  have hload := loads_of_scores (migrateIrq_scores src (some o) i s)
  have hirq := migrateIrq_irqLoads src (some o) i s
  unfold assignIrq
  dsimp only
  generalize migrateIrq src (some o) i s = u at hload hirq
  rw [← hload, ← hirq]
  simp [State.loads, State.irqLoads, State.modIrq]

theorem assignIrq_home (src : Option ObjId) (o : ObjId) (i : IrqId) (s : State) :
    (assignIrq src o i s).home i = some o := by
  simp [assignIrq, State.home, State.modIrq, State.modObj]

/-- What `find_best_object_for_irq` does to the load of the object it chooses. -/
theorem findBestObjectForIrq_loads (h : findBestObjectForIrq d i s = some s') (hne : s.home i ≠ some o)
    (hhome : s'.home i = some o) : s'.loads o = s.loads o + s.irqLoads i := by
  unfold findBestObjectForIrq at h
  split_ifs at h
  · cases h
    exact absurd hhome hne
  · cases h
    exact absurd hhome hne
  · obtain ⟨place, -, h⟩ := Option.bind_eq_some_iff.1 h
    cases hbest : place.best with
    | none =>
      rw [hbest] at h
      cases h
      exact absurd hhome hne
    | some asign =>
      rw [hbest] at h
      cases h
      rw [assignIrq_home, Option.some.injEq] at hhome
      subst hhome
      exact assignIrq_loads ..

/-- The callbacks of `calculate_placement` move irqs to objects only. -/
theorem rearrange_kept (s : State) : KeptByPlacing (Rearrange {none}ᶜ s) where
  toNode i t u hlive ha hi h hu :=
    h.trans ((placeIrqInNode_shifts i t u hlive ha hi hu).rearrange ((hlive.mem_slot ha).1 hi).1)
  down d i t u hlive ha hi h hu :=
    h.trans ((findBestObjectForIrq_shifts d i t u hlive ha hi hu).rearrange ((hlive.mem_slot ha).1 hi).1)

/-- The loads of the irqs are the same at every call of `calculate_placement`. -/
theorem calculatePlacementCalls_irqLoads (h : Live s) : ∀ c ∈ calculatePlacementCalls s,
    c.2.irqLoads = s.irqLoads := fun c hc =>
  (((rearrange_kept s).calculatePlacement ((Rearrange.refl s).sort (none_mem_slots s)) h).2 c hc).2.irqLoads_eq

/-! ### A migration -/

/-- In the cycle that is at `update_migration_status` with the state `s`, an irq of level `BALANCE_CORE` moves
from the cpu `A` to the cpu `B`: the call `e` of `move_candidate_irqs` selects it, and a call of
`find_best_object_for_irq` in `calculate_placement`, which turns `t` into `t'`, assigns it. -/
structure Migration (s : State) (A B : ObjId) (e : IrqId × State × LoadBalanceInfo) (t t' : State) :
    Prop where
  source : A ∈ s.cpus
  target : B ∈ s.cpus
  ne : B ≠ A
  level : (s.irqs e.1).level = .core
  selected : ∃ p, (A, p) ∈ overloadTurns s ∧ e ∈ selectionCalls A p ∧ Selects A e
  placed : ∃ s₁ s₂, updateMigrationStatus s = some s₁ ∧ (s₂ = s₁ ∨ s₂ = forceRescan s₁) ∧
    (e.1, t) ∈ calculatePlacementCalls s₂
  assigned : ∃ d, (t.irqs e.1).assignedObj = some d ∧ d ≠ B ∧ findBestObjectForIrq d e.1 t = some t' ∧
    (t'.irqs e.1).assignedObj = some B

instance (o : ObjId) (e : IrqId × State × LoadBalanceInfo) : Decidable (Selects o e) :=
  match h : moveCandidateIrqs e.1 e.2 with
  | none => isFalse fun ⟨_, hq, _⟩ => Option.some_ne_none _ (hq.symm.trans h)
  | some q => decidable_of_iff (e.1 ∉ (q.1.objs o).interrupts)
      ⟨fun hq => ⟨q, h, hq⟩, fun ⟨_, hq, hgone⟩ => Option.some.inj (hq.symm.trans h) ▸ hgone⟩

/-- The data of a migration: `A`, `B`, `e`, `t` and `t'`. -/
abbrev MigrationData := ObjId × ObjId × (IrqId × State × LoadBalanceInfo) × State × State

/-- The migrations of a cycle that no signal interrupts. -/
def migrations (s : State) : List MigrationData :=
  (overloadTurns s).flatMap fun turn => (selectionCalls turn.1 turn.2).flatMap fun e =>
  (updateMigrationStatus s).elim [] fun s₁ => (calculatePlacementCalls s₁).flatMap fun c =>
  (c.2.irqs e.1).assignedObj.elim [] fun d => (findBestObjectForIrq d e.1 c.2).elim [] fun t' =>
  (t'.irqs e.1).assignedObj.elim [] fun B =>
    if turn.1 ∈ s.cpus ∧ B ∈ s.cpus ∧ B ≠ turn.1 ∧ (s.irqs e.1).level = .core ∧ Selects turn.1 e ∧
      c.1 = e.1 ∧ d ≠ B then [(turn.1, B, e, c.2, t')] else []

theorem migration_of_mem {m : MigrationData} (hm : m ∈ migrations s) : Migration s m.1 m.2.1 m.2.2.1 m.2.2.2.1 m.2.2.2.2 := by
  unfold migrations at hm
  simp only [List.mem_flatMap, Loops.mem_elim] at hm
  obtain ⟨turn, hturn, e, he, s₁, hu, c, hc, d, hd, t', hf, B, hB, hm⟩ := hm
  split_ifs at hm with hok
  · obtain ⟨hA, hB', hne, hlevel, hselects, hi, hdB⟩ := hok
    cases List.mem_singleton.1 hm
    exact {
      source := hA
      target := hB'
      ne := hne
      level := hlevel
      selected := ⟨turn.2, hturn, he, hselects⟩
      placed := ⟨s₁, s₁, hu, Or.inl rfl, hi ▸ hc⟩
      assigned := ⟨d, hd, hdB, hf, hB⟩ }
  · cases hm

theorem Migration.loads_eq (hm : Migration s A B e t t') (h : Live s) :
    t'.loads B = t.loads B + s.irqLoads e.1 := by
  obtain ⟨s₁, s₂, hu, hs₂, hcall⟩ := hm.placed
  obtain ⟨d, hd, hdB, hf, hB⟩ := hm.assigned
  have hr : Rearrange {none} s s₁ := updateMigrationStatus_rearrange h hu
  have hlive : Live s₂ ∧ s₂.irqLoads = s.irqLoads := by
    rcases hs₂ with rfl | rfl
    · exact ⟨hr.live h, hr.irqLoads_eq⟩
    · refine ⟨(hr.live h).of_quiet (forceRescan_quiet s₁), Eq.trans ?_ hr.irqLoads_eq⟩
      unfold forceRescan
      split_ifs <;> rfl
  have hload := calculatePlacementCalls_irqLoads hlive.1 _ hcall
  rw [hlive.2] at hload
  rw [← hload]
  refine findBestObjectForIrq_loads hf (fun hhome => hdB ?_) hB
  exact Option.some.inj (hd.symm.trans hhome)

/-- A cpu is handled in the pass over the cpus. -/
theorem TopoWf.layer_of_cpu (h : TopoWf s) {name : List ObjId} (hname : name ∈ s.layers) (ho : o ∈ name)
    (hcpu : o ∈ s.cpus) : name = s.cpus := by
  have htype := (h.isCpu o hcpu).objType
  simp only [State.layers, List.mem_cons, List.not_mem_nil, or_false] at hname
  rcases hname with rfl | rfl | rfl | rfl
  · rfl
  · rw [(h.isCache o ho).objType] at htype
    cases htype
  · rw [(h.isPackage o ho).objType] at htype
    cases htype
  · rw [h.numaNodes, List.mem_singleton] at ho
    subst ho
    rw [h.nodeType] at htype
    cases htype

/-- The selection on the cpu, in exact arithmetic. -/
theorem Migration.callExact (hm : Migration s A B e t t') (h : Reach anyStep .migration s)
    (harrivals : s.totalArrivals < 2 ^ 64) (hloads : (s.cpus.map fun k => (s.loads k).toNat).sum < 2 ^ 64) :
    CallExact A s e := by
  have hlive := h.live rfl
  have hacc : Accounted s := h.loadsReady rfl harrivals
  obtain ⟨p, hturn, he, -⟩ := hm.selected
  obtain ⟨⟨name, u⟩, hpass, hturn⟩ := List.mem_flatMap.1 hturn
  obtain ⟨hname, -, -⟩ := mem_overloadPasses hlive _ hpass
  have hA : A ∈ name :=
    (Loops.mem_foldCalls (fun _ => True) (fun _ _ _ _ _ _ => trivial) trivial _ hturn).1
  obtain rfl : name = s.cpus := hlive.topo.layer_of_cpu hname hA hm.source
  exact (overloadTurns_exact hlive hpass
    (fun o ho => hacc.covered o (mem_topology_of_cpu ho) (hlive.topo.belowOnce_cpu ho))
    (fun _ => hloads) _ hturn).2.1 e he

/-- **The load that the irq brings to its new cpu.** The load of the new cpu afterwards, `min_load` and the
load of the irq are together less than the loads of the old cpu and of the new one before. -/
theorem migration_helps (h : Reach anyStep .migration s) (harrivals : s.totalArrivals < 2 ^ 64)
    (hloads : (s.cpus.map fun k => (s.loads k).toNat).sum < 2 ^ 64) (hm : Migration s A B e t t') :
    (t'.loads B).toNat + e.2.2.minLoad.toNat + (e.2.1.irqLoads e.1).toNat <
      (e.2.1.loads A).toNat + (t.loads B).toNat ∧
    (t.loads B ≤ e.2.2.minLoad → t'.loads B ≤ e.2.1.loads A) := by
  have hcall := hm.callExact h harrivals hloads
  obtain ⟨-, -, -, hselects⟩ := hm.selected
  have hless := hcall.less hselects
  have hadjust := UInt64.le_iff_toNat_le.1 hcall.adjustmentLoad_le
  have hadded : (t'.loads B).toNat ≤ (t.loads B).toNat + (s.irqLoads e.1).toNat := by
    rw [hm.loads_eq (h.live rfl)]
    exact (UInt64.toNat_add _ _).trans_le (Nat.mod_le _ _)
  rw [hcall.rearrange.irqLoads_eq, hcall.loads]
  refine ⟨by omega, fun hle => UInt64.le_iff_toNat_le.2 ?_⟩
  have hle' := UInt64.le_iff_toNat_le.1 hle
  omega

/-- The first migration of the cycle that a run has come to, with what is checked about it. -/
theorem migration_of_run (envs : List Env) (checks : State → MigrationData → List Bool) (l : List Bool)
    (hrun : (execs envs (.start, State.initial {} fun _ => 0)).bind (fun r =>
      (migrations r.2).head?.map fun m => (r.1, checks r.2 m)) = some (.migration, l)) :
    ∃ s m, Reach anyStep .migration s ∧ Migration s m.1 m.2.1 m.2.2.1 m.2.2.2.1 m.2.2.2.2 ∧ checks s m = l := by
  obtain ⟨⟨pc, s⟩, hr, hm⟩ := Option.bind_eq_some_iff.1 hrun
  obtain ⟨m, hm, hchecks⟩ := Option.map_eq_some_iff.1 hm
  obtain ⟨rfl, hchecks⟩ := Prod.mk.inj hchecks
  exact ⟨s, m, (Reach.init {} (fun _ => 0) rfl).execs_any hr, migration_of_mem (List.mem_of_head? hm), hchecks⟩

/-- The run that leads to three cpus with 100, 90 and 20 units: the irq 14 moves from the first to the second. -/
theorem skewed_migration : ∃ s c t t', Reach anyStep .migration s ∧ Migration s 1 4 c t t' ∧
    0 < s.cycleCount ∧ s.totalArrivals < 2 ^ 64 ∧ (s.cpus.map fun k => (s.loads k).toNat).sum < 2 ^ 64 ∧
    c.2.1.loads 1 = 100000000 ∧ t.loads 4 = 90000000 ∧ c.2.1.irqLoads c.1 = 40000000 ∧
    c.2.1.loads 1 < t'.loads 4 := by
  obtain ⟨s, ⟨A, B, c, t, t'⟩, hreach, hm, e⟩ :=
    migration_of_run (List.replicate 15 quietEnv ++ List.replicate 3 skewedEnv)
      (fun s m => [decide (m.1 = 1), decide (m.2.1 = 4), decide (0 < s.cycleCount),
        decide (s.totalArrivals < 2 ^ 64), decide ((s.cpus.map fun k => (s.loads k).toNat).sum < 2 ^ 64),
        decide (m.2.2.1.2.1.loads 1 = 100000000), decide (m.2.2.2.1.loads 4 = 90000000),
        decide (m.2.2.1.2.1.irqLoads m.2.2.1.1 = 40000000),
        decide (m.2.2.1.2.1.loads 1 < m.2.2.2.2.loads 4)])
      [true, true, true, true, true, true, true, true, true] (by decide +kernel)
  simp only [List.cons.injEq, decide_eq_true_eq] at e
  obtain ⟨rfl, rfl, hcycle, harrivals, hloads, hA, hB, hl, hmore, -⟩ := e
  exact ⟨s, c, t, t', hreach, hm, hcycle, harrivals, hloads, hA, hB, hl, hmore⟩

/-- The irq 14 moves from the first cpu to the second, which ends with more than the first one had: its 40 units
are less than half of 100, but the second cpu had 90 already. -/
theorem migration_helps_threeCpus : ∃ s c t t', Migration s 1 4 c t t' ∧ c.2.1.loads 1 = 100000000 ∧
    t.loads 4 = 90000000 ∧ c.2.1.irqLoads c.1 = 40000000 ∧
    (t'.loads 4).toNat + c.2.2.minLoad.toNat + (c.2.1.irqLoads c.1).toNat <
      (c.2.1.loads 1).toNat + (t.loads 4).toNat := by
  obtain ⟨s, c, t, t', hreach, hm, -, harrivals, hloads, hA, hB, hl, -⟩ := skewed_migration
  exact ⟨s, c, t, t', hm, hA, hB, hl, (migration_helps hreach harrivals hloads hm).1⟩

/-- Two irqs of the first cpu have fired so often that its count wraps to 0. -/
def floodedEnv : Env where
  procInterrupts := some ("   CPU0 CPU1 CPU2\n 10: 9223372036854775809 0 0 GIC eth0\n".toList ++
    " 11: 1 0 0 GIC eth1\n 12: 1 0 0 GIC eth2\n 13: 1 0 0 GIC eth3\n".toList ++
    " 14: 9223372036854775809 0 0 GIC eth4\n".toList)
  procStat := some ("cpu  1 2 3 4 5 6 7 8\ncpu0 1 2 3 4 5 6 17 8\n".toList ++
    "cpu1 1 2 3 4 5 6 7 8\ncpu2 1 2 3 4 5 6 7 8\n".toList)

/-- **A migration can reverse the imbalance**: where the new cpu has more than `min_load`, with loads and counts
that fit, and where it has `min_load`, with counts that do not. -/
theorem migration_reverses :
    (¬ ∀ (s t t' : State) (A B : ObjId) (e : IrqId × State × LoadBalanceInfo), Reach anyStep .migration s →
      0 < s.cycleCount → s.totalArrivals < 2 ^ 64 → (s.cpus.map fun k => (s.loads k).toNat).sum < 2 ^ 64 →
      Migration s A B e t t' → t'.loads B ≤ e.2.1.loads A) ∧
    ¬ ∀ (s t t' : State) (A B : ObjId) (e : IrqId × State × LoadBalanceInfo), Reach anyStep .migration s →
      0 < s.cycleCount → Migration s A B e t t' → t.loads B ≤ e.2.2.minLoad →
      t'.loads B ≤ e.2.1.loads A := by
  constructor
  · intro hclaim
    obtain ⟨s, _, _, _, hreach, hm, hcycle, harrivals, hloads, -, -, -, hmore⟩ := skewed_migration
    exact absurd hmore (UInt64.not_lt.2 (hclaim s _ _ _ _ _ hreach hcycle harrivals hloads hm))
  · intro hclaim
    obtain ⟨s, m, hreach, hm, e⟩ :=
      migration_of_run (List.replicate 15 quietEnv ++ List.replicate 3 floodedEnv)
        (fun s m => [decide (0 < s.cycleCount),
          decide (m.2.2.2.1.loads m.2.1 ≤ m.2.2.1.2.2.minLoad),
          decide (m.2.2.1.2.1.loads m.1 < m.2.2.2.2.loads m.2.1)])
        [true, true, true] (by decide +kernel)
    simp only [List.cons.injEq, decide_eq_true_eq] at e
    obtain ⟨hcycle, hless, hmore, -⟩ := e
    exact absurd hmore (UInt64.not_lt.2 (hclaim s _ _ _ _ _ hreach hcycle hm hless))

end IrqBalance
