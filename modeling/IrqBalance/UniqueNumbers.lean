import IrqBalance.MainLoop

/-!
# The searches by number

`get_irq_info` and `migrate_irq` compare irq numbers. While `rebuild_irq_db` registers irqs, and in every
run, no two records have the same number, so that they find the record that is meant.
-/

namespace IrqBalance

open CString (Text)

variable {s t : State} {i : IrqId}

/-- No two registered records have the same number, `get_irq_info` finds each of them by its number, and so
does `migrate_irq` in any list of them. -/
structure UniqueNumbers (s : State) : Prop where
  nodup : (s.known.map s.number).Nodup
  found : ∀ i ∈ s.known, getIrqInfo s (s.number i) = some i
  search : ∀ l : List IrqId, (∀ i ∈ l, i ∈ s.known) → ∀ i ∈ l, l.find? (sameIrq s (s.number i)) = some i

theorem UniqueNumbers.of_nodup (h : (s.known.map s.number).Nodup) : UniqueNumbers s := by
  have hsame : ∀ i ∈ s.known, ∀ j ∈ s.known, sameIrq s (s.number i) j = true ↔ j = i := by
    intro i hi j hj
    rw [sameIrq_iff]
    exact ⟨List.inj_on_of_nodup_map h hj hi, congrArg _⟩
  have hsearch : ∀ l : List IrqId, (∀ i ∈ l, i ∈ s.known) → ∀ i ∈ l,
      l.find? (sameIrq s (s.number i)) = some i :=
    fun l hl i hi => find?_eq_self hi fun j hj => hsame i (hl i hi) j (hl j hj)
  refine ⟨h, fun i hi => ?_, hsearch⟩
  have hknown : getIrqInfo s (s.number i) = s.known.find? (sameIrq s (s.number i)) := by
    rw [State.known, List.find?_append]
    unfold getIrqInfo
    split
    · next h => rw [h]; rfl
    · next h => rw [h]; rfl
  rw [hknown]
  exact hsearch s.known (fun _ h => h) i hi

/-! ### A rebuild, step by step -/

/-- The states that `rebuild_irq_db` goes through: after some of the irqs of devices, and after all of them
and some of the irqs of `/proc/interrupts`. -/
inductive RebuildState (env : IrqEnv) (tmpIrqs : List IrqInfo) (devs : List PciDev) (s : State) :
    State → Prop
  | device {es : List PciIrq} {t : State} : es <+: pciIrqs devs →
      es.foldlM (fun s e => addDevIrq env e.dev e.type tmpIrqs e.irq s) (freeIrqDb s) = some t →
      RebuildState env tmpIrqs devs s t
  | missing {infos : List IrqInfo} {u t : State} :
      devs.foldlM (buildOneDevEntry env tmpIrqs) (freeIrqDb s) = some u → infos <+: tmpIrqs →
      infos.foldlM (addMissingIrq env u.interruptsDb.isEmpty) u = some t →
      RebuildState env tmpIrqs devs s t

variable {env : IrqEnv} {tmpIrqs : List IrqInfo} {devs : List PciDev}

/-- Registering irqs of devices keeps the database well formed. -/
theorem dbInv_devices {es : List PciIrq} (h : DbInv s)
    (ht : es.foldlM (fun s e => addDevIrq env e.dev e.type tmpIrqs e.irq s) s = some t) : DbInv t :=
  Loops.foldlM_inv DbInv (fun e _ _ _ hu hstep => (addDevIrq_registers e hu hstep).1) h ht

/-- **At each step of a rebuild the database is well formed.** -/
theorem RebuildState.dbInv (h : RebuildState env tmpIrqs devs s t) : DbInv t := by
  cases h with
  | device _ ht => exact dbInv_devices (dbInv_freeIrqDb s) ht
  | missing hu _ ht =>
    rw [← foldlM_pciIrqs] at hu
    apply Loops.foldlM_inv DbInv _ (dbInv_devices (dbInv_freeIrqDb s) hu) ht
    intro info _ v v' hv hstep
    exact (addMissingIrq_registers hv hstep).1

/-- The last one of these states is the result. -/
theorem rebuildIrqDb_rebuildState {platform : Text → Option (List Text)} {procInterrupts : Option Text}
    {pciDir : Option (List PciDev)} (h : rebuildIrqDb env platform procInterrupts pciDir s = some t) :
    ∃ tmpIrqs, collectFullIrqList platform procInterrupts s = some tmpIrqs ∧
      RebuildState env tmpIrqs (pciDir.getD []) s t := by
  unfold rebuildIrqDb at h
  obtain ⟨tmpIrqs, htmp, h⟩ := Option.bind_eq_some_iff.1 h
  refine ⟨tmpIrqs, htmp, ?_⟩
  cases pciDir with
  | none =>
    cases h
    exact .device (List.nil_prefix) rfl
  | some devs =>
    obtain ⟨u, hu, h⟩ := Option.bind_eq_some_iff.1 h
    exact .missing hu (List.prefix_refl tmpIrqs) h

/-- In every run no two registered records have the same number. -/
theorem Reach.number_nodup {A : Env → Pc → State → Prop} {pc : Pc} (h : Reach A pc s) :
    (s.known.map s.number).Nodup := by
  apply h.elim
  · intro hbare
    rw [State.known, hbare.interruptsDb, hbare.bannedIrqs]
    exact List.nodup_nil
  · intro hbuilt
    exact hbuilt.db.number_nodup
  · intro hlive
    exact hlive.db.number_nodup

/-- In every run the lists that irqs move between hold registered records only. -/
theorem Reach.slot_known {A : Env → Pc → State → Prop} {pc : Pc} (h : Reach A pc s) {a : Option ObjId}
    (ha : a ∈ s.slots) (hi : i ∈ s.slot a) : i ∈ s.known := by
  apply h.elim
  · intro hbare
    cases a with
    | none => rw [State.slot, hbare.rebalanceIrqList] at hi; cases hi
    | some o =>
      obtain ⟨-, -, hnodes, hpackages, hcaches, hcpus⟩ := hbare.treeless
      have ho := some_mem_slots.1 ha
      rw [State.topology, hnodes, hpackages, hcaches, hcpus] at ho
      cases ho
  · intro hbuilt
    cases a with
    | none => rw [State.slot, hbuilt.rebalanceIrqList] at hi; cases hi
    | some o => rw [State.slot, hbuilt.interrupts o (some_mem_slots.1 ha)] at hi; cases hi
  · intro hlive
    exact List.mem_append_left _ ((hlive.mem_slot ha).1 hi).1.1

/-- **At each step of a rebuild, and in every run, the searches by number find the record that is meant.** -/
theorem numbers_unique :
    (∀ (env : IrqEnv) (platform : Text → Option (List Text)) (procInterrupts : Option Text)
        (pciDir : Option (List PciDev)) (s t : State),
      rebuildIrqDb env platform procInterrupts pciDir s = some t →
        ∃ tmpIrqs, collectFullIrqList platform procInterrupts s = some tmpIrqs ∧
          RebuildState env tmpIrqs (pciDir.getD []) s t) ∧
    (∀ (env : IrqEnv) (tmpIrqs : List IrqInfo) (devs : List PciDev) (s t : State),
      RebuildState env tmpIrqs devs s t → UniqueNumbers t) ∧
    ∀ (pc : Pc) (s : State), Reach anyStep pc s → UniqueNumbers s ∧
      ∀ a ∈ s.slots, ∀ i ∈ s.slot a, (s.slot a).find? (sameIrq s (s.number i)) = some i := by
  refine ⟨fun env platform procInterrupts pciDir s t => rebuildIrqDb_rebuildState,
    fun env tmpIrqs devs s t h => .of_nodup h.dbInv.number_nodup, fun pc s h => ?_⟩
  have hunique : UniqueNumbers s := .of_nodup h.number_nodup
  exact ⟨hunique, fun a ha => hunique.search _ fun i hi => h.slot_known ha hi⟩

end IrqBalance
