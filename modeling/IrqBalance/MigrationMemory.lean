import IrqBalance.PlacementMemory
import IrqBalance.Progress

/-!
# Selecting irqs in memory

`update_migration_status` on lists in memory: it sorts the lists of the loaded objects, takes irqs off them while
it walks them, and puts them on `rebalance_irq_list`. In every reachable state it comes to its end, and the memory
holds the state that its model ends in (`migration_in_memory`). So does `force_rebalance_irq` with the irqs of a new
database (`filing_in_memory`).
-/

namespace IrqBalance

open LinkedList (Malloc behindAll cells)

section Source

variable {ν : Type} [DecidableEq ν] (malloc : Malloc ν Record)

namespace Mem

/-! ### `irqlist.c` -/

/-- The end of `move_candidate_irqs` and of `force_irq_migration`. -/
def takeOff (obj : ObjId) (i : IrqId) (m : Mem ν) : Option (Mem ν) :=
  (m.migrateIrq malloc (some obj) none i).map fun m => m.modIrq i fun info => { info with assignedObj := none }

/-- `move_candidate_irqs`. -/
def moveCandidateIrqs (i : IrqId) (p : Mem ν × LoadBalanceInfo) : Option (Mem ν × LoadBalanceInfo) :=
  let m := p.1
  let lb := p.2
  let info := m.vars.irqs i
  if info.hasHint .exact then some p
  else if info.level = .none then some p
  else match info.assignedObj with
    -- `info->assigned_obj->interrupts` through NULL
    | none => none
    | some obj => (m.length (.interrupts obj)).bind fun n =>
      if n ≤ 1 then some p
      else if info.load ≤ 1 then some p
      else if lb.adjustmentLoad - info.load > lb.minLoad + info.load then
        (m.takeOff malloc obj i).map fun m => (m,
          { lb with
            adjustmentLoad := lb.adjustmentLoad - info.load
            minLoad := lb.minLoad + info.load })
      else some p

/-- `migrate_overloaded_irqs` behind the counters. -/
def migrateObjIrqs (obj : ObjId) (p : Mem ν × LoadBalanceInfo) : Option (Mem ν × LoadBalanceInfo) :=
  let m := p.1
  let info := p.2
  let load := (m.vars.objs obj).load
  if info.minLoad < load then
    (m.length (.interrupts obj)).bind fun n =>
      if 1 < n then
        (m.sortIrqList (some obj)).bind fun m =>
          forEachIrq Prod.fst (.slot (some obj)) (moveCandidateIrqs malloc) (m, { info with adjustmentLoad := load })
      else some p
  else some p

/-- `migrate_overloaded_irqs`. -/
def migrateOverloadedIrqs (obj : ObjId) (p : Mem ν × LoadBalanceInfo) : Option (Mem ν × LoadBalanceInfo) :=
  migrateObjIrqs malloc obj (p.1, countObj p.1.vars p.2 obj)

/-- `force_irq_migration`. -/
def forceIrqMigration (i : IrqId) (m : Mem ν) : Option (Mem ν) :=
  match (m.vars.irqs i).assignedObj with
  | none => none
  | some obj => m.takeOff malloc obj i

/-- `clear_powersave_mode`. -/
def clearPowersaveMode (obj : ObjId) (m : Mem ν) : Mem ν := m.modObj obj fun o => { o with powersaveMode := false }

/-- The statistics that `find_overloaded_objs` computes before it looks at single objects. -/
def loadStats (name : ListVar) (m : Mem ν) : Option LoadBalanceInfo :=
  (forEachObject (fun _ => m) name (fun o info => some (gatherLoadStats m.vars info o)) {}).bind fun info =>
    let info := { info with loadSources := if info.loadSources = 0 then 1 else info.loadSources }
    let info := { info with avgLoad := info.totalLoad / UInt64.ofNat info.loadSources }
    (forEachObject (fun _ => m) name (fun o info => some (computeDeviations m.vars info o)) info).map fun info =>
      let variance := info.deviations / UInt64.ofNat (info.loadSources - 1)
      { info with
        stdDeviation :=
          if info.loadSources = 1 then 0
          else Round.sqrtSig stdFracBits (Round.sig 53 variance.toNat) }

/-- `find_overloaded_objs`. -/
def findOverloadedObjs (name : ListVar) (m : Mem ν) : Option (Mem ν × LoadBalanceInfo) :=
  (m.loadStats name).bind fun info => forEachObject Prod.fst name (migrateOverloadedIrqs malloc) (m, info)

/-- The powersave decision of `update_migration_status`, after the pass over the cpus. -/
def updatePowersave (m : Mem ν) (info : LoadBalanceInfo) : Option (Mem ν) :=
  let wakeUp := forEachObject id .cpus (fun cpu m => some (m.clearPowersaveMode cpu)) m
  if m.vars.opts.powerThresh ≠ ullongMax ∧ 5 < m.vars.cycleCount then
    match info.powersave with
    | some cpu =>
      if info.numOver = 0 ∧ m.vars.opts.powerThresh.toNat ≤ info.numUnder then
        let m := m.modObj cpu fun o => { o with powersaveMode := true }
        (m.length (.interrupts cpu)).bind fun n =>
          if 0 < n then forEachIrq id (.slot (some cpu)) (forceIrqMigration malloc) m else some m
      else if info.numOver ≠ 0 ∧ info.numPowersave ≠ 0 then wakeUp
      else some m
    | none => if info.numOver ≠ 0 ∧ info.numPowersave ≠ 0 then wakeUp else some m
  else some m

/-- `update_migration_status`. -/
def updateMigrationStatus (m : Mem ν) : Option (Mem ν) :=
  (m.findOverloadedObjs malloc .cpus).bind fun r => (r.1.updatePowersave malloc r.2).bind fun m =>
    (m.findOverloadedObjs malloc .cacheDomains).bind fun r => (r.1.findOverloadedObjs malloc .packages).bind fun r =>
      (r.1.findOverloadedObjs malloc .numaNodes).bind fun r => some r.1

/-! ### `irqbalance.c` -/

/-- `force_rebalance_irq`. -/
def forceRebalanceIrq (i : IrqId) (m : Mem ν) : Option (Mem ν) :=
  if (m.vars.irqs i).level = .none then some m
  else
    let filed := match (m.vars.irqs i).assignedObj with
      | none =>
        (gListAppend malloc m.nodes (m.head (.slot none)) (.irq i)).map (m.setList (.slot none))
      | some obj => m.migrateIrq malloc (some obj) none i
    filed.map fun m => m.modIrq i fun info => { info with assignedObj := none }

/-- `for_each_irq(NULL, force_rebalance_irq, NULL)`. -/
def forceRebalance (m : Mem ν) : Option (Mem ν) := forEachIrq id .interruptsDb (forceRebalanceIrq malloc) m

end Mem

end Source

variable {ν : Type} [DecidableEq ν] {m m' : Mem ν} {s s' s₀ : State} {p : Mem ν × LoadBalanceInfo}
variable {q : State × LoadBalanceInfo} {nodes objs : ListVar → List ν} {i : IrqId} {d o : ObjId} {k : ListVar} {x : ν}
variable {os : List ObjId}

/-! ### `force_rebalance_irq` -/

section Forced

variable (malloc : Malloc ν Record)

/-- The irq is appended to `rebalance_irq_list`, or nothing happens. -/
theorem forceRebalanceIrq_rep (h : RepAt m s nodes) (hi : (s.irqs i).assignedObj = none) :
    ∃ m' nodes', m.forceRebalanceIrq malloc i = some m' ∧ RepAt m' (s.file [i]) nodes' ∧
      ∀ k ≠ .slot none, nodes' k = nodes k ∧ ∀ y ∈ nodes k, m'.nodes.data y = m.nodes.data y := by
  have hirq : m.vars.irqs i = s.irqs i := by rw [h.vars]; rfl
  have hfile := forceRebalanceIrq_new hi
  unfold forceRebalanceIrq at hfile
  unfold Mem.forceRebalanceIrq
  rw [hirq]
  by_cases hlevel : (s.irqs i).level = .none
  · rw [if_pos hlevel] at hfile
    rw [if_pos hlevel, ← Option.some.inj hfile]
    exact ⟨m, nodes, rfl, h, fun _ _ => ⟨rfl, fun _ _ => rfl⟩⟩
  · rw [if_neg hlevel, hi] at hfile
    rw [if_neg hlevel, hi, ← Option.some.inj hfile]
    have ha := none_mem_slots s
    have hstored := h.stored (.slot none)
    obtain ⟨n, r, hrun, hchanges, hnew⟩ := gListAppend_spec malloc hstored (.irq i)
    have happend := h.update ha hchanges (l := s.slot none ++ [i])
      (by rw [List.map_append, hchanges.map_data hstored.allocated, h.data, slot_lists ha, List.map_singleton, hnew,
        List.map_append, List.map_singleton])
    dsimp only
    rw [hrun]
    exact ⟨_, _, rfl, happend.modIrq i _, fun k hk => ⟨Function.update_of_ne hk .., fun y hy =>
      hchanges.data y (h.allocated hy)⟩⟩

/-- **The irqs of a new database are filed** in the order of the list. -/
theorem forceRebalance_rep (h : Rep objs m s) (hbuilt : Built s) :
    ∃ m', m.forceRebalance malloc = some m' ∧ Rep objs m' (s.file s.interruptsDb) := by
  obtain ⟨nodes, hrep, hobjs⟩ := h
  have hstored := hrep.stored .interruptsDb
  have hrel : Option.Rel (fun t u => ∃ nodes', RepAt t u nodes' ∧ (∀ k, k.ofObjs = true → nodes' k = objs k) ∧
      nodes' .interruptsDb = nodes .interruptsDb ∧ u.interruptsDb = s.interruptsDb ∧ u.irqs = s.irqs)
      (m.forceRebalance malloc) (s.interruptsDb.foldlM (fun u i => forceRebalanceIrq i u) s) := by
    unfold Mem.forceRebalance Mem.forEachIrq
    dsimp only [id]
    rw [ite_self, gListFirst_eq hstored, Option.bind_some, hstored.seg.head_eq]
    refine LinkedList.each_foldlM_rel (fun (t : Mem ν) x => (t.nodes.data x).irqId) ?_ ?_
      ⟨nodes, hrep, hobjs, rfl, rfl, rfl⟩ hstored.length_le
    · rintro t u ⟨nodes', hrep', -, hnodes, hdb, -⟩
      have hstored' := hrep'.stored .interruptsDb
      rw [hstored'.seg.head_eq, hnodes] at hstored'
      refine ⟨hstored', ?_⟩
      have hmap := congrArg (List.map Record.irqId) (hrep'.data .interruptsDb)
      rw [State.lists, hdb, hnodes, List.map_map, List.map_map] at hmap
      exact hmap.trans (List.map_id _)
    · rintro x hx t u ⟨nodes', hrep', hobjs', hnodes, hdb, hirqs⟩
      have hdata : t.nodes.data x ∈ s.interruptsDb.map Record.irq := by
        have hlist := hrep'.data .interruptsDb
        rw [State.lists, hdb, hnodes] at hlist
        rw [← hlist]
        exact List.mem_map_of_mem hx
      obtain ⟨i, hi, e⟩ := List.mem_map.1 hdata
      have hnew : (u.irqs i).assignedObj = none := by
        rw [hirqs]
        exact (hbuilt.isNew i hi).assignedObj
      obtain ⟨t', nodes'', hrun, hrep'', hkeep⟩ := forceRebalanceIrq_rep malloc hrep' hnew
      rw [← e]
      dsimp only [Record.irqId]
      rw [hrun, forceRebalanceIrq_new hnew]
      refine .some ⟨nodes'', hrep'', fun k hk => ?_, ?_, hdb, hirqs⟩
      · have hne : k ≠ .slot none := by
          rintro rfl
          cases hk
        exact (hkeep k hne).1.trans (hobjs' k hk)
      · exact (hkeep .interruptsDb (by decide)).1.trans hnodes
  rw [foldlM_forceRebalanceIrq _ fun i hi => (hbuilt.isNew i hi).assignedObj] at hrel
  cases hm : m.forceRebalance malloc with
  | none => rw [hm] at hrel; cases hrel
  | some m' =>
    rw [hm] at hrel
    obtain ⟨nodes', hrep', hobjs', -⟩ := Option.rel_some_some.1 hrel
    exact ⟨m', rfl, nodes', hrep', hobjs'⟩

/-- **Filing in memory.** Behind every `build_object_tree` and `rebuild_irq_db` the irqs are appended one by one to
`rebalance_irq_list` while the database is walked, without undefined behaviour. -/
theorem filing_in_memory {pc : Pc} (h : Reach anyStep pc s) (hpc : pc.phase = .built) (hrep : Rep objs m s) :
    ∃ m' s', m.forceRebalance malloc = some m' ∧ forceRebalance s = some s' ∧ Rep objs m' s' := by
  have hbuilt := h.holds
  rw [hpc] at hbuilt
  obtain ⟨m', hm', hrep'⟩ := forceRebalance_rep malloc hrep hbuilt
  exact ⟨m', _, hm', Built.forceRebalance_eq hbuilt, hrep'⟩

/-- The first irq of two cpus. -/
theorem filing_in_memory_twoCpus : ∃ s s' m', s.rebalanceIrqList = [] ∧ s'.rebalanceIrqList = [0] ∧
    s.mem.forceRebalance (behindAll .cpus) = some m' ∧ forceRebalance s = some s' ∧ Rep (cells s.lists) m' s' := by
  have hrun : (execs [twoCpusEnv] (.start, State.initial {} fun _ => 0)).map (fun r =>
      (r.1, r.2.rebalanceIrqList, (forceRebalance r.2).map State.rebalanceIrqList)) =
      some (.forceRebalance, [], some [0]) := by
    decide +kernel
  obtain ⟨⟨pc, s⟩, hr, e⟩ := Option.map_eq_some_iff.1 hrun
  simp only [Prod.mk.injEq] at e
  obtain ⟨rfl, hbefore, hafter⟩ := e
  obtain ⟨m', s', hm', hs', hrep⟩ := filing_in_memory (behindAll .cpus)
    ((Reach.init {} (fun _ => 0) rfl).execs_any hr) rfl (mem_rep s).rep
  rw [hs'] at hafter
  exact ⟨s, s', m', hbefore, Option.some.inj hafter, hm', hs', hrep⟩

end Forced

/-! ### The statistics -/

/-- A loop that only reads. -/
theorem forEachObject_foldl {α : Type} (h : Rep objs m s) (hk : k.ofObjs = true) (hlists : s.lists k = os.map .obj)
    (f : α → ObjId → α) (a : α) :
    Mem.forEachObject (fun _ => m) k (fun o a => some (f a o)) a = some (os.foldl f a) := by
  have hrel := forEachObject_rel (fun _ => m) (fun _ => s) (fun o a => some (f a o)) (fun a o => some (f a o))
    (R := fun a b => a = b ∧ True) (t := a) (s := a) hk (fun _ _ _ => ⟨h, hlists⟩)
    (fun o _ a b hab => .some ⟨congrArg (f · o) hab.1, trivial⟩) ⟨rfl, trivial⟩
  exact (eq_of_rel hrel).trans (List.foldlM_pure ..)

theorem loadStats_rep (h : Rep objs m s) (hk : k.ofObjs = true) (hlists : s.lists k = os.map .obj) :
    m.loadStats k = some (loadStats os s) := by
  have hgather : gatherLoadStats m.vars = gatherLoadStats s := by rw [h.vars]; rfl
  have hdeviations : computeDeviations m.vars = computeDeviations s := by rw [h.vars]; rfl
  unfold Mem.loadStats
  rw [hgather, hdeviations, forEachObject_foldl h hk hlists, Option.bind_some]
  dsimp only
  rw [forEachObject_foldl h hk hlists]
  rfl

/-! ### Taking irqs off -/

variable (malloc : Malloc ν Record)

omit [DecidableEq ν] in
/-- The irq of a node of the list of an object is assigned to the object. -/
theorem RepAt.assignedObj (h : RepAt m s nodes) (hlive : Live s) (hd : d ∈ s.topology)
    (hx : x ∈ nodes (.slot (some d))) (hi : m.nodes.data x = .irq i) : (s.irqs i).assignedObj = some d := by
  obtain ⟨j, hj, hjx⟩ := h.mem_slot (some_mem_slots.2 hd) hx
  obtain rfl : i = j := Record.irq.inj (hi.symm.trans hjx)
  exact ((hlive.mem_slot (some_mem_slots.2 hd)).1 hj).2

theorem takeOff_rep (h : RepAt m s nodes) (hlive : Live s) (hd : d ∈ s.topology) (hx : x ∈ nodes (.slot (some d)))
    (hi : m.nodes.data x = .irq i) :
    ∃ m' nodes', m.takeOff malloc d i = some m' ∧ RepAt m' (takeOff d i s) nodes' ∧
      Unlinks (some d) x m m' nodes nodes' := by
  have ha := some_mem_slots.2 hd
  obtain ⟨m₁, nodes', hrun, hrep, hmigrated⟩ := migrateIrq_rep malloc h ha (none_mem_slots s) i
  have hunlinks := hmigrated.unlinks h hlive ha hx hi (Option.some_ne_none d)
  refine ⟨m₁.modIrq i fun info => { info with assignedObj := none }, nodes', ?_, hrep.modIrq i _, hunlinks.objs,
    hunlinks.list, hunlinks.data⟩
  rw [Mem.takeOff, hrun]
  rfl

/-- `move_candidate_irqs`. -/
theorem moveCandidateIrqs_rep (hd : d ∈ q.1.topology) (h : RepAt p.1 q.1 nodes) (hlive : Live q.1) (hinfo : p.2 = q.2)
    (hx : x ∈ nodes (.slot (some d))) (hi : p.1.nodes.data x = .irq i) :
    Option.Rel (fun p' q' => p'.2 = q'.2 ∧ ∃ nodes', RepAt p'.1 q'.1 nodes' ∧ Unlinks (some d) x p.1 p'.1 nodes nodes')
      (Mem.moveCandidateIrqs malloc i p) (moveCandidateIrqs i q) := by
  have hstays : Option.Rel (fun p' q' => p'.2 = q'.2 ∧
      ∃ nodes', RepAt p'.1 q'.1 nodes' ∧ Unlinks (some d) x p.1 p'.1 nodes nodes') (some p) (some q) :=
    .some ⟨hinfo, nodes, h, Unlinks.refl ..⟩
  have hirq : p.1.vars.irqs i = q.1.irqs i := by rw [h.vars]; rfl
  obtain ⟨m', nodes', hrun, hrep, hunlinks⟩ := takeOff_rep malloc h hlive hd hx hi
  unfold Mem.moveCandidateIrqs moveCandidateIrqs
  dsimp only
  rw [hirq, hinfo, h.assignedObj hlive hd hx hi]
  dsimp only
  rw [h.rep.interrupts_length hd, Option.bind_some, hrun]
  split_ifs
  case pos => exact hstays
  case pos => exact hstays
  case pos => exact hstays
  case pos => exact hstays
  case pos => exact .some ⟨rfl, nodes', hrep, hunlinks⟩
  case neg => exact hstays

/-- `force_irq_migration`. -/
theorem forceIrqMigration_rep (hd : d ∈ s.topology) (h : RepAt m s nodes) (hlive : Live s)
    (hx : x ∈ nodes (.slot (some d))) (hi : m.nodes.data x = .irq i) :
    Option.Rel (fun m' s' => True ∧ ∃ nodes', RepAt m' s' nodes' ∧ Unlinks (some d) x m m' nodes nodes')
      (m.forceIrqMigration malloc i) (forceIrqMigration i s) := by
  have hirq : m.vars.irqs i = s.irqs i := by rw [h.vars]; rfl
  obtain ⟨m', nodes', hrun, hrep, hunlinks⟩ := takeOff_rep malloc h hlive hd hx hi
  unfold Mem.forceIrqMigration forceIrqMigration
  rw [hirq, h.assignedObj hlive hd hx hi]
  dsimp only
  rw [hrun]
  exact .some ⟨trivial, nodes', hrep, hunlinks⟩

/-! ### The passes -/

/-- The memory holds a state that a pass has got to, with the same statistics. -/
def StatsFrom (s₀ : State) (objs : ListVar → List ν) (p : Mem ν × LoadBalanceInfo) (q : State × LoadBalanceInfo) : Prop :=
  RepFrom {none} s₀ objs p.1 q.1 ∧ p.2 = q.2

/-- **`migrate_overloaded_irqs`** in memory, behind the counters. -/
theorem migrateObjIrqs_rel (h : StatsFrom s₀ objs p q) (hlive : Live s₀) (ho : o ∈ s₀.topology) :
    Option.Rel (StatsFrom s₀ objs) (Mem.migrateObjIrqs malloc o p) (migrateObjIrqs o q) := by
  obtain ⟨⟨hrep, hr⟩, hinfo⟩ := h
  have hlive' := hr.live hlive
  have ho' : o ∈ q.1.topology := by rwa [topology_of_static hr.static_eq]
  have ha := some_mem_slots.2 ho'
  have hload : (p.1.vars.objs o).load = (q.1.objs o).load := by rw [hrep.vars]; rfl
  unfold Mem.migrateObjIrqs migrateObjIrqs
  dsimp only
  rw [hload, hinfo, hrep.interrupts_length ho', Option.bind_some]
  by_cases hover : q.2.minLoad < (q.1.objs o).load ∧ 1 < (q.1.objs o).interrupts.length
  · rw [if_pos hover.1, if_pos hover.2, if_pos hover]
    obtain ⟨m₁, hrun, hsorted⟩ := sortIrqList_rep hrep ha
    have hsort : Rearrange {none} q.1 (sortIrqList (some o) q.1) := (Rearrange.refl q.1).sort ha
    have hwalk := forEachIrq_rel (Q := fun p q => p.2 = q.2) Prod.fst Prod.fst (fun s => (s.objs o).interrupts)
      (Mem.moveCandidateIrqs malloc) moveCandidateIrqs (moveCandidateIrqs_shifts o)
      (fun i x t s nodes ht hs ha hq hx hi => moveCandidateIrqs_rep malloc (some_mem_slots.1 ha) ht hs hq hx hi)
      (t := (m₁, { q.2 with adjustmentLoad := (q.1.objs o).load }))
      (s := (sortIrqList (some o) q.1, { q.2 with adjustmentLoad := (q.1.objs o).load }))
      hsorted rfl (hsort.live hlive') (hsort.mem_slots ha) (fun _ => rfl) (sort_interrupts_ne_nil hover.2)
    rw [hrun, Option.bind_some]
    exact Loops.rel_mono hwalk fun _ _ hw => ⟨⟨hw.1, hr.trans (hsort.trans hw.2.2)⟩, hw.2.1⟩
  · have hstays : Option.Rel (StatsFrom s₀ objs) (some p) (some q) := .some ⟨⟨hrep, hr⟩, hinfo⟩
    rw [if_neg hover]
    split_ifs with hmin hlength
    · exact absurd ⟨hmin, hlength⟩ hover
    · exact hstays
    · exact hstays

/-- **`find_overloaded_objs`** in memory. -/
theorem findOverloadedObjs_rel (hk : k.ofObjs = true) (hlive : Live s₀)
    (hlists : ∀ s, Rearrange {none} s₀ s → s.lists k = os.map .obj) (hos : ∀ o ∈ os, o ∈ s₀.topology)
    (h : RepFrom {none} s₀ objs m s) :
    Option.Rel (StatsFrom s₀ objs) (m.findOverloadedObjs malloc k) (findOverloadedObjs os s) := by
  unfold Mem.findOverloadedObjs findOverloadedObjs
  rw [loadStats_rep h.1 hk (hlists s h.2), Option.bind_some]
  refine forEachObject_rel Prod.fst Prod.fst (Mem.migrateOverloadedIrqs malloc) migrateOverloadedIrqs hk
    (fun p q hpq => ⟨hpq.1.1, hlists q.1 hpq.1.2⟩) (fun o ho p q hpq => ?_) ⟨h, rfl⟩
  have hcount : countObj p.1.vars p.2 o = countObj q.1 q.2 o := by
    rw [hpq.1.1.vars, hpq.2]
    rfl
  unfold Mem.migrateOverloadedIrqs migrateOverloadedIrqs
  rw [hcount]
  exact migrateObjIrqs_rel malloc ⟨hpq.1, rfl⟩ hlive (hos o ho)

/-- Waking up all cpus. -/
theorem clearPowersaveMode_rel (h : RepFrom {none} s₀ objs m s) :
    Option.Rel (RepFrom {none} s₀ objs) (Mem.forEachObject id .cpus (fun cpu m => some (m.clearPowersaveMode cpu)) m)
      (some (s.cpus.foldl clearPowersaveMode s)) := by
  have hcpus : ∀ t, Rearrange {none} s₀ t → t.cpus = s.cpus := fun t ht => by
    rw [cpus_of_static ht.static_eq, cpus_of_static h.2.static_eq]
  have hloop : s.cpus.foldlM (fun t k => some (clearPowersaveMode t k)) s = some (s.cpus.foldl clearPowersaveMode s) :=
    List.foldlM_pure ..
  rw [← hloop]
  have hlists : ∀ t, Rearrange {none} s₀ t → t.lists .cpus = s.cpus.map .obj := fun t ht =>
    congrArg (List.map Record.obj) (hcpus t ht)
  refine forEachObject_rel id id (fun cpu m => some (m.clearPowersaveMode cpu))
    (fun t k => some (clearPowersaveMode t k)) rfl (fun _ t ht => ⟨ht.1, hlists t ht.2⟩) (fun k hk m t ht => ?_) h
  obtain ⟨⟨nodes, hrep, hobjs⟩, hr⟩ := ht
  exact .some ⟨⟨nodes, hrep.modObj k (fun _ => ⟨rfl, rfl⟩) fun _ => rfl, hobjs⟩,
    hr.sleep (by rwa [hcpus t hr]) false⟩

/-- **The powersave decision** in memory. -/
theorem updatePowersave_rel (h : StatsFrom s₀ objs p q) (hlive : Live s₀)
    (hpowersave : ∀ k, q.2.powersave = some k → k ∈ q.1.cpus) :
    Option.Rel (RepFrom {none} s₀ objs) (p.1.updatePowersave malloc p.2) (updatePowersave q.1 q.2) := by
  obtain ⟨hfrom, hinfo⟩ := h
  have hwake := clearPowersaveMode_rel hfrom
  have hstays : Option.Rel (RepFrom {none} s₀ objs) (some p.1) (some q.1) := .some hfrom
  have hopts : p.1.vars.opts = q.1.opts := by rw [hfrom.1.vars]; rfl
  have hcycle : p.1.vars.cycleCount = q.1.cycleCount := by rw [hfrom.1.vars]; rfl
  unfold Mem.updatePowersave updatePowersave
  dsimp only
  rw [hopts, hcycle, hinfo]
  cases hcpu : q.2.powersave with
  | none =>
    dsimp only
    split_ifs
    · exact hwake
    · exact hstays
    · exact hstays
  | some cpu =>
    obtain ⟨⟨nodes, hrep, hobjs⟩, hr⟩ := hfrom
    have hmem := hpowersave cpu hcpu
    have hasleep : Rep objs (p.1.modObj cpu fun o => { o with powersaveMode := true })
        (q.1.modObj cpu fun o => { o with powersaveMode := true }) :=
      ⟨nodes, hrep.modObj cpu (fun _ => ⟨rfl, rfl⟩) fun _ => rfl, hobjs⟩
    have hsleep : Rearrange {none} s₀ (q.1.modObj cpu fun o => { o with powersaveMode := true }) := hr.sleep hmem true
    have htopology : cpu ∈ (q.1.modObj cpu fun o => { o with powersaveMode := true }).topology := mem_topology_of_cpu hmem
    dsimp only
    rw [hasleep.interrupts_length htopology, Option.bind_some]
    split_ifs with hon henter hlength hnil hnil
    · exact absurd hnil (List.length_pos_iff.1 hlength)
    · unfold forEachIrq
      refine Loops.rel_mono (forEachIrq_rel (Q := fun _ _ => True) id id (fun s => (s.objs cpu).interrupts)
        (Mem.forceIrqMigration malloc) forceIrqMigration (forceIrqMigration_shifts cpu)
        (fun i x t s nodes ht hs ha _ hx hi => forceIrqMigration_rep malloc (some_mem_slots.1 ha) ht hs hx hi)
        hasleep trivial (hsleep.live hlive) (some_mem_slots.2 htopology) (fun _ => rfl) hnil)
        fun _ _ hw => ⟨hw.1, hsleep.trans hw.2.2⟩
    · exact .some ⟨hasleep, hsleep⟩
    · exact absurd (List.length_pos_iff.2 hnil) hlength
    · exact hwake
    · exact hstays
    · exact hstays

/-- **`update_migration_status` in memory.** -/
theorem updateMigrationStatus_rel (hlive : Live s) (h : Rep objs m s) :
    Option.Rel (RepFrom {none} s objs) (m.updateMigrationStatus malloc) (updateMigrationStatus s) := by
  have hcpus : ∀ t, Rearrange {none} s t → t.cpus = s.cpus := fun t ht => cpus_of_static ht.static_eq
  have hcaches : ∀ t, Rearrange {none} s t → t.cacheDomains = s.cacheDomains := fun t ht =>
    cacheDomains_of_static ht.static_eq
  have hpackages : ∀ t, Rearrange {none} s t → t.packages = s.packages := fun t ht => packages_of_static ht.static_eq
  have hnuma : ∀ t, Rearrange {none} s t → t.numaNodes = s.numaNodes := fun t ht =>
    show t.static.numaNodes = s.static.numaNodes by rw [ht.static_eq]
  have hlists : ∀ {l l' : List ObjId}, l = l' → l.map Record.obj = l'.map Record.obj := congrArg (List.map Record.obj)
  unfold Mem.updateMigrationStatus updateMigrationStatus
  have hfirst := findOverloadedObjs_rel malloc (k := .cpus) rfl hlive (fun t ht => hlists (hcpus t ht))
    (fun o ho => mem_topology_of_cpu ho) ⟨h, .refl s⟩
  refine Loops.rel_bind (Loops.rel_and hfirst (fun _ _ => trivial) fun _ hr => hr) fun p q hpq => ?_
  obtain ⟨hstats, -, hfound⟩ := hpq
  have hpowersave : ∀ k, q.2.powersave = some k → k ∈ q.1.cpus := fun k hk => by
    rw [hcpus q.1 hstats.1.2]
    exact findOverloadedObjs_powersave hfound k hk
  refine Loops.rel_bind (updatePowersave_rel malloc hstats hlive hpowersave) fun m₁ s₁ h₁ => ?_
  rw [hcaches s₁ h₁.2]
  refine Loops.rel_bind (findOverloadedObjs_rel malloc (k := .cacheDomains) rfl hlive
    (fun t ht => hlists (hcaches t ht)) (fun o ho => by simp [State.topology, ho]) h₁) fun p₂ q₂ h₂ => ?_
  rw [hpackages q₂.1 h₂.1.2]
  refine Loops.rel_bind (findOverloadedObjs_rel malloc (k := .packages) rfl hlive
    (fun t ht => hlists (hpackages t ht)) (fun o ho => by simp [State.topology, ho]) h₂.1) fun p₃ q₃ h₃ => ?_
  rw [hnuma q₃.1 h₃.1.2]
  exact Loops.rel_bind (findOverloadedObjs_rel malloc (k := .numaNodes) rfl hlive
    (fun t ht => hlists (hnuma t ht)) (fun o ho => by simp [State.topology, ho]) h₃.1) fun _ _ h₄ => .some h₄.1

/-- **Selecting in memory.** In every reachable state `update_migration_status` comes to its end without undefined
behaviour, and the memory holds what the model of the lists ends in. -/
theorem migration_in_memory (h : Reach anyStep .migration s) (hrep : Rep objs m s) :
    ∃ m' s', m.updateMigrationStatus malloc = some m' ∧ updateMigrationStatus s = some s' ∧ Rep objs m' s' := by
  have hlive := h.live rfl
  obtain ⟨s', hs'⟩ := Option.isSome_iff_exists.1 hlive.updateMigrationStatus_isSome
  have hrel := updateMigrationStatus_rel malloc hlive hrep
  rw [hs'] at hrel
  cases hm : m.updateMigrationStatus malloc with
  | none => rw [hm] at hrel; cases hrel
  | some m' =>
    rw [hm] at hrel
    exact ⟨m', s', rfl, hs', (Option.rel_some_some.1 hrel).1⟩

/-- The third cycle on three cpus, from a memory for its state: the irq 14 is put on the list. -/
theorem migration_in_memory_threeCpus : ∃ s s' m', s.rebalanceIrqList = [] ∧ s'.rebalanceIrqList = [4] ∧
    s.mem.updateMigrationStatus (behindAll .cpus) = some m' ∧ updateMigrationStatus s = some s' ∧
    Rep (cells s.lists) m' s' := by
  have hrun : (execs (List.replicate 15 quietEnv ++ List.replicate 3 skewedEnv)
      (.start, State.initial {} fun _ => 0)).map (fun r =>
        (r.1, r.2.rebalanceIrqList, (updateMigrationStatus r.2).map State.rebalanceIrqList)) =
      some (.migration, [], some [4]) := by
    decide +kernel
  obtain ⟨⟨pc, s⟩, hr, e⟩ := Option.map_eq_some_iff.1 hrun
  simp only [Prod.mk.injEq] at e
  obtain ⟨rfl, hbefore, hafter⟩ := e
  obtain ⟨m', s', hm', hs', hrep⟩ := migration_in_memory (behindAll .cpus)
    ((Reach.init {} (fun _ => 0) rfl).execs_any hr) (mem_rep s).rep
  rw [hs'] at hafter
  exact ⟨s, s', m', hbefore, Option.some.inj hafter, hm', hs', hrep⟩

end IrqBalance
