import IrqBalance.IrqMemory
import IrqBalance.LoadFlow

/-!
# Placing irqs in memory

`calculate_placement` on lists in memory: it takes irqs off the lists that it walks, and frees and allocates nodes
on the way. In every reachable state it does what its model does to the lists of the state, and it ends where that
ends (`placement_in_memory`): no node is read or freed after it has been freed, no list is torn, and no node is
left behind.
-/

namespace IrqBalance

open LinkedList (Malloc behindAll cells)

section Source

variable {ν : Type} [DecidableEq ν] (malloc : Malloc ν Record)

namespace Mem

/-! ### `placement.c` -/

/-- `find_best_object`. -/
def findBestObject (m : Mem ν) (best : ObjPlacement) (d : ObjId) : Option ObjPlacement :=
  if ineligible m.vars best.info d then some best
  else
    let newload := (m.vars.objs d).load
    if newload < best.bestCost then some { best with best := some d, bestCost := newload }
    else if newload = best.bestCost then
      match best.best with
      | none => none
      | some b => do
        let n ← m.length (.interrupts d)
        let bestLength ← m.length (.interrupts b)
        if n < bestLength then some { best with best := some d } else some best
    else some best

/-- The search for the best of the objects in a list. -/
def findBest (m : Mem ν) (i : IrqId) (list : ListVar) : Option ObjPlacement :=
  forEachObject (fun _ => m) list (fun d place => m.findBestObject place d) ⟨none, ullongMax, i⟩

/-- Move the irq from one list to an object's, and add its load there. -/
def assignIrq (src : Option ObjId) (asign : ObjId) (i : IrqId) (m : Mem ν) : Option (Mem ν) :=
  (m.migrateIrq malloc src (some asign) i).map fun m =>
    let m := m.modIrq i fun info => { info with assignedObj := some asign }
    m.modObj asign fun o => { o with load := o.load + (m.vars.irqs i).load }

/-- `find_best_object_for_irq`. -/
def findBestObjectForIrq (d : ObjId) (i : IrqId) (m : Mem ν) : Option (Mem ν) :=
  if !(m.vars.irqs i).moved then some m
  else if staysAt (m.vars.objs d).objType (m.vars.irqs i).level then some m
  else
    (m.findBest i (.children d)).bind fun place =>
      match place.best with
      | none => some m
      | some asign => m.assignIrq malloc (some d) asign i

/-- `place_irq_in_object`. -/
def placeIrqInObject (d : ObjId) (m : Mem ν) : Option (Mem ν) :=
  (m.length (.interrupts d)).bind fun n =>
    if 0 < n then forEachIrq id (.slot (some d)) (findBestObjectForIrq malloc d) m else some m

/-- `place_irq_in_node`. -/
def placeIrqInNode (i : IrqId) (m : Mem ν) : Option (Mem ν) :=
  if (m.vars.irqs i).level = .none ∧ cpusEmpty m.vars.bannedCpus then some m
  else
    -- the label `find_placement`
    let findPlacement : Option (Mem ν) :=
      (m.findBest i .numaNodes).bind fun place =>
        match place.best with
        | none => some m
        | some asign => m.assignIrq malloc none asign i
    match (m.vars.irqs i).numaNode with
    -- `irq_numa_node(info)->number` through NULL
    | none => none
    | some node =>
      if (m.vars.objs node).number = -1 then findPlacement
      else if !cpusIntersects (m.vars.objs node).mask m.vars.unbannedCpus then findPlacement
      else
        (m.migrateIrq malloc none (some node) i).map fun m =>
          let m := m.modIrq i fun info => { info with assignedObj := some node }
          m.modObj node fun o => { o with load := o.load + ((m.vars.irqs i).load + 1) }

/-- `calculate_placement`. -/
def calculatePlacement (m : Mem ν) : Option (Mem ν) :=
  (m.sortIrqList none).bind fun m => (m.length .rebalanceIrqList).bind fun n =>
    if 0 < n then
      (forEachIrq id (.slot none) (placeIrqInNode malloc) m).bind fun m =>
        (forEachObject id .numaNodes (placeIrqInObject malloc) m).bind fun m =>
          (forEachObject id .packages (placeIrqInObject malloc) m).bind
            (forEachObject id .cacheDomains (placeIrqInObject malloc))
    else some m

end Mem

end Source

variable {ν : Type} [DecidableEq ν] {m m' : Mem ν} {s s' s₀ : State}
variable {nodes objs : ListVar → List ν} {a dst : Option ObjId} {i : IrqId} {d o : ObjId} {k : ListVar} {x : ν}

/-! ### Reading -/

omit [DecidableEq ν] in
theorem RepAt.rep (h : RepAt m s nodes) : Rep nodes m s := ⟨nodes, h, fun _ _ => rfl⟩

theorem Rep.length_eq (h : Rep objs m s) (k : ListVar) : m.length k = some (s.lists k).length := by
  obtain ⟨nodes, hrep, -⟩ := h
  rw [Mem.length, gListLength_eq (hrep.stored k), ← hrep.data k, List.length_map]

/-- The irqs of an object. -/
theorem Rep.interrupts_length (h : Rep objs m s) (ho : o ∈ s.topology) :
    m.length (.interrupts o) = some (s.objs o).interrupts.length := by
  rw [h.length_eq, State.lists, if_pos ho, List.length_map]

omit [DecidableEq ν] in
theorem Rep.vars (h : Rep objs m s) : m.vars = s.unlisted := by
  obtain ⟨nodes, hrep, -⟩ := h
  exact hrep.vars

/-- `find_best_object` finds the same object. -/
theorem findBestObject_rep (h : Rep objs m s) {best : ObjPlacement} (hd : d ∈ s.topology)
    (hbest : ∀ b, best.best = some b → b ∈ s.topology) : m.findBestObject best d = findBestObject s best d := by
  have hineligible : ineligible m.vars best.info d = ineligible s best.info d := by rw [h.vars]; rfl
  have hload : (m.vars.objs d).load = (s.objs d).load := by rw [h.vars]; rfl
  unfold Mem.findBestObject findBestObject
  rw [hineligible, hload]
  cases hb : best.best with
  | none => rfl
  | some b =>
    dsimp only
    rw [h.interrupts_length hd, h.interrupts_length (hbest b hb)]
    rfl

theorem eq_of_rel {α : Type} {x y : Option α} {P : α → Prop} (h : Option.Rel (fun a b => a = b ∧ P b) x y) : x = y := by
  cases h with
  | none => rfl
  | some h => rw [h.1]

theorem children_lists (hd : d ∈ s.topology) : s.lists (.children d) = (s.objs d).children.map .obj := if_pos hd

/-- The search among the objects of a list. -/
theorem findBest_rep (h : Rep objs m s) (hk : k.ofObjs = true) {os : List ObjId} (hlists : s.lists k = os.map .obj)
    (hos : ∀ o ∈ os, o ∈ s.topology) (i : IrqId) : m.findBest i k = findBest s i os := by
  refine eq_of_rel (P := fun place : ObjPlacement => ∀ b, place.best = some b → b ∈ s.topology) ?_
  refine forEachObject_rel (fun _ => m) (fun _ => s) (fun d place => m.findBestObject place d) (findBestObject s)
    (R := fun place place' => place = place' ∧ ∀ b, place'.best = some b → b ∈ s.topology) hk
    (fun _ _ _ => ⟨h, hlists⟩) ?_ ⟨rfl, fun b hb => nomatch hb⟩
  rintro d hd place _ ⟨rfl, hbest⟩
  rw [findBestObject_rep h (hos d hd) hbest]
  cases hf : findBestObject s place d with
  | none => exact .none
  | some place' =>
    refine .some ⟨rfl, fun b hb => ?_⟩
    rcases findBestObject_cases hf with ⟨rfl, -⟩ | ⟨-, hd', -⟩
    · exact hbest b hb
    · rw [hd'] at hb
      rw [← Option.some.inj hb]
      exact hos d hd

/-! ### Placing -/

variable (malloc : Malloc ν Record)

/-- An irq moves from the list that is walked to an object. -/
theorem assignIrq_rep (h : RepAt m s nodes) (hlive : Live s) (ha : a ∈ s.slots) (hx : x ∈ nodes (.slot a))
    (hi : m.nodes.data x = .irq i) (ho : o ∈ s.topology) (hne : a ≠ some o) :
    ∃ m' nodes', m.assignIrq malloc a o i = some m' ∧ RepAt m' (assignIrq a o i s) nodes' ∧
      Unlinks a x m m' nodes nodes' := by
  obtain ⟨m₁, nodes', hrun, hrep, hmigrated⟩ := migrateIrq_rep malloc h ha (some_mem_slots.2 ho) i
  have hunlinks := hmigrated.unlinks h hlive ha hx hi hne
  have hassigned := hrep.modIrq i fun info => { info with assignedObj := some o }
  set m₂ := m₁.modIrq i fun info => { info with assignedObj := some o }
  have hload : (m₂.vars.irqs i).load =
      (((migrateIrq a (some o) i s).modIrq i fun info => { info with assignedObj := some o }).irqs i).load := by
    rw [hassigned.vars]
    rfl
  refine ⟨m₂.modObj o fun ob => { ob with load := ob.load + (m₂.vars.irqs i).load }, nodes', ?_, ?_, hunlinks.objs,
    hunlinks.list, hunlinks.data⟩
  · rw [Mem.assignIrq, hrun]
    rfl
  · rw [hload]
    exact hassigned.modObj o (fun _ => ⟨rfl, rfl⟩) fun _ => rfl

/-- `find_best_object_for_irq`. -/
theorem findBestObjectForIrq_rep (hd : d ∈ s.topology) (h : RepAt m s nodes) (hlive : Live s)
    (hx : x ∈ nodes (.slot (some d))) (hi : m.nodes.data x = .irq i) :
    Option.Rel (fun m' s' => True ∧ ∃ nodes', RepAt m' s' nodes' ∧ Unlinks (some d) x m m' nodes nodes')
      (m.findBestObjectForIrq malloc d i) (findBestObjectForIrq d i s) := by
  have hstays : Option.Rel (fun m' s' => True ∧ ∃ nodes', RepAt m' s' nodes' ∧ Unlinks (some d) x m m' nodes nodes')
      (some m) (some s) := .some ⟨trivial, nodes, h, Unlinks.refl ..⟩
  have hmoved : (m.vars.irqs i).moved = (s.irqs i).moved := by rw [h.vars]; rfl
  have hstay : staysAt (m.vars.objs d).objType (m.vars.irqs i).level = staysAt (s.objs d).objType (s.irqs i).level := by
    rw [h.vars]
    rfl
  have hkids : ∀ c ∈ s.kids d, c ∈ s.topology := fun c hc => hlive.topo.mem_topology_of_kid hd hc
  have hbest : m.findBest i (.children d) = findBest s i (s.objs d).children :=
    findBest_rep h.rep rfl (children_lists hd) hkids i
  unfold Mem.findBestObjectForIrq findBestObjectForIrq
  rw [hmoved, hstay, hbest]
  split_ifs
  · exact hstays
  · exact hstays
  · cases hplace : findBest s i (s.objs d).children with
    | none => exact .none
    | some place =>
      simp only [Option.bind_eq_bind, Option.bind_some]
      cases hc : place.best with
      | none => exact hstays
      | some c =>
        have hkid := (findBest_mem hplace hc).1
        obtain ⟨m', nodes', hrun, hrep, hunlinks⟩ := assignIrq_rep malloc h hlive (some_mem_slots.2 hd) hx hi
          (hkids c hkid) fun e => hlive.topo.kid_ne hd hkid (Option.some.inj e).symm
        dsimp only
        rw [hrun]
        exact .some ⟨trivial, nodes', hrep, hunlinks⟩

/-- `place_irq_in_node`. -/
theorem placeIrqInNode_rep (h : RepAt m s nodes) (hlive : Live s) (hx : x ∈ nodes (.slot none))
    (hi : m.nodes.data x = .irq i) :
    Option.Rel (fun m' s' => True ∧ ∃ nodes', RepAt m' s' nodes' ∧ Unlinks none x m m' nodes nodes')
      (m.placeIrqInNode malloc i) (placeIrqInNode i s) := by
  obtain ⟨j, hj, hjx⟩ := h.mem_slot (none_mem_slots s) hx
  obtain rfl : i = j := Record.irq.inj (hi.symm.trans hjx)
  obtain ⟨hi', -⟩ := (hlive.mem_slot (none_mem_slots s)).1 hj
  have hlevel : (m.vars.irqs i).level = (s.irqs i).level := by rw [h.vars]; rfl
  have hnuma : (m.vars.irqs i).numaNode = some unspecifiedNode := by
    rw [h.vars]
    exact hlive.db.numaNode i hi'.1
  have hnumber : (m.vars.objs unspecifiedNode).number = -1 := by
    rw [h.vars]
    exact hlive.topo.nodeNumber
  have hbest : m.findBest i .numaNodes = findBest s i s.numaNodes := by
    refine findBest_rep h.rep rfl rfl (fun o ho => ?_) i
    rw [hlive.topo.numaNodes, List.mem_singleton] at ho
    rw [ho]
    exact unspecifiedNode_mem_topology hlive.topo
  unfold Mem.placeIrqInNode placeIrqInNode
  dsimp only
  rw [if_neg fun hl => hi'.2 (hlevel ▸ hl.1), if_neg fun hl => hi'.2 hl.1, hnuma, hlive.db.numaNode i hi'.1]
  dsimp only
  rw [if_pos hnumber, if_pos hlive.topo.nodeNumber, hbest]
  cases hplace : findBest s i s.numaNodes with
  | none => exact .none
  | some place =>
    simp only [Option.bind_eq_bind, Option.bind_some]
    cases hc : place.best with
    | none => exact .some ⟨trivial, nodes, h, Unlinks.refl ..⟩
    | some c =>
      have hnode := (findBest_mem hplace hc).1
      rw [hlive.topo.numaNodes, List.mem_singleton] at hnode
      subst hnode
      obtain ⟨m', nodes', hrun, hrep, hunlinks⟩ := assignIrq_rep malloc h hlive (none_mem_slots s) hx hi
        (unspecifiedNode_mem_topology hlive.topo) (Option.some_ne_none _).symm
      dsimp only
      rw [hrun]
      exact .some ⟨trivial, nodes', hrep, hunlinks⟩

/-- The memory holds a state that a pass has got to. -/
def RepFrom (D : Set (Option ObjId)) (s₀ : State) (objs : ListVar → List ν) (m : Mem ν) (s : State) : Prop :=
  Rep objs m s ∧ Rearrange D s₀ s

/-- **`place_irq_in_object`** in memory. -/
theorem placeIrqInObject_rel (h : RepFrom {none}ᶜ s₀ objs m s) (hlive : Live s₀) (hd : d ∈ s₀.topology) :
    Option.Rel (RepFrom {none}ᶜ s₀ objs) (m.placeIrqInObject malloc d) (placeIrqInObject s d) := by
  obtain ⟨hrep, hr⟩ := h
  have hlive' := hr.live hlive
  have hd' : d ∈ s.topology := by rwa [topology_of_static hr.static_eq]
  unfold Mem.placeIrqInObject placeIrqInObject
  rw [hrep.interrupts_length hd', Option.bind_some]
  by_cases hnil : (s.objs d).interrupts = []
  · rw [if_pos hnil, hnil, if_neg (by simp)]
    exact .some ⟨hrep, hr⟩
  · rw [if_neg hnil, if_pos (List.length_pos_iff.2 hnil)]
    have hwalk := forEachIrq_rel id id (fun s => (s.objs d).interrupts) (Mem.findBestObjectForIrq malloc d)
      (findBestObjectForIrq d) (findBestObjectForIrq_shifts d)
      (fun i x t s nodes ht hs ha _ hx hi => findBestObjectForIrq_rep malloc (some_mem_slots.1 ha) ht hs hx hi)
      hrep trivial hlive' (some_mem_slots.2 hd') (fun _ => rfl) hnil
    exact Loops.rel_mono hwalk fun _ _ hw => ⟨hw.1, hr.trans hw.2.2⟩

/-- A pass over the objects of a list. -/
theorem placePass_rel (hk : k.ofObjs = true) {os : List ObjId} (hlive : Live s₀)
    (hlists : ∀ s, Rearrange {none}ᶜ s₀ s → s.lists k = os.map .obj) (hos : ∀ o ∈ os, o ∈ s₀.topology)
    (h : RepFrom {none}ᶜ s₀ objs m s) :
    Option.Rel (RepFrom {none}ᶜ s₀ objs) (Mem.forEachObject id k (Mem.placeIrqInObject malloc) m)
      (os.foldlM placeIrqInObject s) :=
  forEachObject_rel id id (Mem.placeIrqInObject malloc) placeIrqInObject hk (fun _ _ hts => ⟨hts.1, hlists _ hts.2⟩)
    (fun o ho _ _ hts => placeIrqInObject_rel malloc hts hlive (hos o ho)) h

/-- **`calculate_placement` in memory.** -/
theorem calculatePlacement_rel (hlive : Live s) (h : Rep objs m s) :
    Option.Rel (RepFrom {none}ᶜ s objs) (m.calculatePlacement malloc) (calculatePlacement s) := by
  obtain ⟨m₁, hrun, hsorted⟩ := sortIrqList_rep h (none_mem_slots s)
  have hsort : Rearrange {none}ᶜ s (sortIrqList none s) := (Rearrange.refl s).sort (none_mem_slots s)
  have hlive₁ := hlive.sort none
  have hlength : m₁.length .rebalanceIrqList = some (sortIrqList none s).rebalanceIrqList.length := by
    rw [hsorted.length_eq, State.lists, List.length_map]
  unfold Mem.calculatePlacement calculatePlacement
  rw [hrun, Option.bind_some, hlength, Option.bind_some]
  dsimp only
  by_cases hnil : (sortIrqList none s).rebalanceIrqList = []
  · rw [if_pos hnil, hnil, if_neg (by simp)]
    exact .some ⟨hsorted, hsort⟩
  · rw [if_neg hnil, if_pos (List.length_pos_iff.2 hnil)]
    have hwalk := forEachIrq_rel id id State.rebalanceIrqList (Mem.placeIrqInNode malloc) placeIrqInNode
      placeIrqInNode_shifts (fun i x t s nodes ht hs _ _ hx hi => placeIrqInNode_rep malloc ht hs hx hi)
      hsorted trivial hlive₁ (none_mem_slots _) (fun _ => rfl) hnil
    have hnuma : ∀ t, Rearrange {none}ᶜ s t → t.numaNodes = s.numaNodes := fun t ht =>
      show t.static.numaNodes = s.static.numaNodes by rw [ht.static_eq]
    have hpackages : ∀ t, Rearrange {none}ᶜ s t → t.packages = s.packages := fun t ht => packages_of_static ht.static_eq
    have hcaches : ∀ t, Rearrange {none}ᶜ s t → t.cacheDomains = s.cacheDomains := fun t ht =>
      cacheDomains_of_static ht.static_eq
    refine Loops.rel_bind (Loops.rel_mono hwalk fun _ _ hw => (⟨hw.1, hsort.trans hw.2.2⟩ : RepFrom {none}ᶜ s objs _ _))
      fun m₂ s₂ h₂ => ?_
    rw [hnuma s₂ h₂.2]
    refine Loops.rel_bind (placePass_rel malloc rfl hlive (fun t ht => congrArg (List.map Record.obj) (hnuma t ht))
      (fun o ho => by simp [State.topology, ho]) h₂) fun m₃ s₃ h₃ => ?_
    rw [hpackages s₃ h₃.2]
    refine Loops.rel_bind (placePass_rel malloc rfl hlive (fun t ht => congrArg (List.map Record.obj) (hpackages t ht))
      (fun o ho => by simp [State.topology, ho]) h₃) fun m₄ s₄ h₄ => ?_
    rw [hcaches s₄ h₄.2]
    exact placePass_rel malloc rfl hlive (fun t ht => congrArg (List.map Record.obj) (hcaches t ht))
      (fun o ho => by simp [State.topology, ho]) h₄

/-- **Placing in memory.** In every reachable state the pointers are followed without undefined behaviour wherever the
model of the lists has none, and the memory holds its result. -/
theorem placement_in_memory (h : Reach anyStep .placement s) (hrep : Rep objs m s) :
    Option.Rel (Rep objs) (m.calculatePlacement malloc) (calculatePlacement s) :=
  Loops.rel_mono (calculatePlacement_rel malloc (h.live rfl) hrep) fun _ _ hfrom => hfrom.1

/-- The second cycle on three cpus, from a memory for its state. -/
theorem placement_in_memory_threeCpus : ∃ s s', calculatePlacement s = some s' ∧ s.arrived s' 6 = [4] ∧
    ∃ m', s.mem.calculatePlacement (behindAll .cpus) = some m' ∧ Rep (cells s.lists) m' s' := by
  obtain ⟨s, s', hreach, -, hp, harrived, -⟩ := skewed_placement
  have hrel := placement_in_memory (behindAll .cpus) hreach (mem_rep s).rep
  rw [hp] at hrel
  cases hm : s.mem.calculatePlacement (behindAll .cpus) with
  | none => rw [hm] at hrel; cases hrel
  | some m' =>
    rw [hm] at hrel
    exact ⟨s, s', hp, harrived, m', hm, Option.rel_some_some.1 hrel⟩

end IrqBalance
