import IrqBalance.IrqMemory
import IrqBalance.MainLoop

/-!
# Freeing the tree in memory

`free_object_tree` frees the nodes of all lists and the records of all objects and irqs. In every reachable state it
does so without undefined behaviour, and nothing stays allocated (`freeing_in_memory`): no node and no record is
used after it has been freed or freed twice, and none is left behind, though the variables in the objects keep
pointing to lists that are gone, and `rebalance_irq_list` to irqs that are.
-/

namespace IrqBalance

open LinkedList (Nodes Stored Lists Changes each cells)

section Source

variable {ν : Type} [DecidableEq ν]

namespace Mem

/-- `free` of a record. -/
def freeRecord (r : Record) (m : Mem ν) : Option (Mem ν) :=
  if r ∈ m.records then some { m with records := m.records.erase r } else none

/-- `g_list_free`; the variable keeps its value. -/
def freeList (k : ListVar) (m : Mem ν) : Option (Mem ν) :=
  (gListFree m.nodes (m.head k)).map fun n => { m with nodes := n }

/-- Write NULL to a variable. -/
def setNull (k : ListVar) (m : Mem ν) : Mem ν := { m with head := Function.update m.head k none }

/-- Free the lists of an object. It is read, so that it must be there; `unspecified_node` always is. -/
def freeLists (children : Bool) (o : ObjId) (m : Mem ν) : Option (Mem ν) :=
  if o = unspecifiedNode ∨ .obj o ∈ m.records then
    (if children then m.freeList (.children o) else some m).bind (freeList (.interrupts o))
  else none

/-! ### `numa.c` -/

/-- `free_numa_node`. -/
def freeNumaNode (o : ObjId) (m : Mem ν) : Option (Mem ν) :=
  (m.freeLists true o).bind fun m => if o = unspecifiedNode then some m else m.freeRecord (.obj o)

/-- `free_numa_node_list`. -/
def freeNumaNodeList (m : Mem ν) : Option (Mem ν) :=
  -- `g_list_foreach`
  (each Mem.nodes (fun
    | .obj o => freeNumaNode o
    | .irq _ => fun _ => none) m.nodes.allocated.card (m.head .numaNodes) m).bind fun m =>
      (m.freeList .numaNodes).map (setNull .numaNodes)

/-! ### `cputree.c` -/

/-- A loop of `clear_cpu_tree`. -/
def clearObjs (k : ListVar) (children : Bool) : ℕ → Mem ν → Option (Mem ν)
  | 0, m => if m.head k = none then some m else none
  | n + 1, m =>
    if m.head k = none then some m
    else (gListFirst m.nodes (m.head k)).bind fun item => (item.bind m.nodes.datum).bind fun
      | .irq _ => none
      | .obj o => (m.freeLists children o).bind fun m => (m.freeRecord (.obj o)).bind fun m =>
        (gListDeleteLink m.nodes (m.head k) item).bind fun r => clearObjs k children n (m.setList k r)

/-- `clear_cpu_tree`. -/
def clearCpuTree (m : Mem ν) : Option (Mem ν) :=
  (clearObjs .packages true m.nodes.allocated.card m).bind fun m =>
    let m := { m with vars := { m.vars with packageCount := 0 } }
    (clearObjs .cacheDomains true m.nodes.allocated.card m).bind fun m =>
      let m := { m with vars := { m.vars with cacheDomainCount := 0 } }
      (clearObjs .cpus false m.nodes.allocated.card m).map fun m =>
        { m with vars := { m.vars with coreCount := 0 } }

/-! ### `classify.c` -/

/-- `free_irq`. -/
def freeIrq (i : IrqId) (m : Mem ν) : Option (Mem ν) := m.freeRecord (.irq i)

/-- `free_irq_db`. -/
def freeIrqDb (m : Mem ν) : Option (Mem ν) :=
  (forEachIrq id .interruptsDb freeIrq m).bind fun m => (m.freeList .interruptsDb).bind fun m =>
    let m := m.setNull .interruptsDb
    (forEachIrq id .bannedIrqs freeIrq m).bind fun m => (m.freeList .bannedIrqs).bind fun m =>
      let m := m.setNull .bannedIrqs
      (m.freeList .rebalanceIrqList).map (setNull .rebalanceIrqList)

/-- `free_object_tree`. -/
def freeObjectTree (m : Mem ν) : Option (Mem ν) :=
  m.freeNumaNodeList.bind fun m => m.clearCpuTree.bind freeIrqDb

end Mem

end Source

/-! ### What is left -/

variable {ν : Type} [DecidableEq ν] {m : Mem ν} {s : State} {nodes objs : ListVar → List ν} {k : ListVar}
variable {o : ObjId} {D : Set ListVar} {lists : ListVar → List Record}

open Classical in
/-- The lists without those of `D`. -/
noncomputable def leftOf (D : Set ListVar) (lists : ListVar → List Record) (k : ListVar) : List Record :=
  if k ∈ D then [] else lists k

/-- The lists of `D` have been freed, and the variables may point anywhere. The memory holds the other ones. -/
def Remains (D : Set ListVar) (lists : ListVar → List Record) (m : Mem ν) : Prop :=
  ∃ head nodes, Lists m.nodes head nodes (leftOf D lists) ∧ ∀ k ∉ D, m.head k = head k

theorem leftOf_of_notMem (hk : k ∉ D) : leftOf D lists k = lists k := if_neg hk

theorem leftOf_insert (D : Set ListVar) (lists : ListVar → List Record) (k : ListVar) :
    Function.update (leftOf D lists) k [] = leftOf (insert k D) lists := by
  funext k'
  by_cases hk : k' = k
  · subst hk
    rw [Function.update_self]
    exact (if_pos (Set.mem_insert k' D)).symm
  · have hiff : k' ∈ insert k D ↔ k' ∈ D := ⟨fun h => h.resolve_left hk, Or.inr⟩
    rw [Function.update_of_ne hk]
    by_cases hmem : k' ∈ D
    · exact (if_pos hmem).trans (if_pos (hiff.2 hmem)).symm
    · exact (if_neg hmem).trans (if_neg (mt hiff.1 hmem)).symm

theorem leftOf_update (hk : k ∉ D) (l : List Record) :
    Function.update (leftOf D lists) k l = leftOf D (Function.update lists k l) := by
  funext k'
  by_cases hk' : k' = k
  · subst hk'
    rw [Function.update_self, leftOf_of_notMem hk, Function.update_self]
  · rw [Function.update_of_ne hk', leftOf, leftOf, Function.update_of_ne hk']

omit [DecidableEq ν] in
/-- A list that is left, and what becomes of the others when it changes. -/
theorem Remains.stored (h : Remains D lists m) (hk : k ∉ D) :
    ∃ l, Stored m.nodes (m.head k) l ∧ l.map m.nodes.data = lists k ∧ ∀ n q l' d, Changes m.nodes n l q l' →
      l'.map n.data = d → Remains D (Function.update lists k d) (m.setList k (n, q)) := by
  obtain ⟨head, nodes, hlists, hhead⟩ := h
  refine ⟨nodes k, hhead k hk ▸ hlists.stored k, (hlists.data k).trans (leftOf_of_notMem hk), ?_⟩
  intro n q l' d hchanges hd
  refine ⟨Function.update head k q, Function.update nodes k l', ?_, fun k' hk' => ?_⟩
  · rw [← leftOf_update hk]
    exact hlists.update hchanges hd
  · change Function.update m.head k q k' = Function.update head k q k'
    rw [Function.update_apply, Function.update_apply, hhead k' hk']

theorem Remains.freeList (h : Remains D lists m) (hk : k ∉ D) :
    ∃ n, m.freeList k = some { m with nodes := n } ∧ Remains (insert k D) lists { m with nodes := n } := by
  obtain ⟨head, nodes, hlists, hhead⟩ := h
  obtain ⟨n, hrun, hchanges⟩ := gListFree_spec (hlists.stored k)
  refine ⟨n, ?_, Function.update head k none, Function.update nodes k [], ?_, fun k' hk' => ?_⟩
  · rw [Mem.freeList, hhead k hk, hrun]
    rfl
  · rw [← leftOf_insert]
    exact hlists.update hchanges rfl
  · have hne : k' ≠ k := fun e => hk' (e ▸ Set.mem_insert k' D)
    rw [Function.update_of_ne hne]
    exact hhead k' fun hmem => hk' (Set.mem_insert_of_mem k hmem)

omit [DecidableEq ν] in
/-- The variables of freed lists may be written. -/
theorem Remains.setNull (h : Remains D lists m) (hk : k ∈ D) : Remains D lists (m.setNull k) := by
  obtain ⟨head, nodes, hlists, hhead⟩ := h
  refine ⟨head, nodes, hlists, fun k' hk' => ?_⟩
  have hne : k' ≠ k := fun e => hk' (e ▸ hk)
  exact (Function.update_of_ne hne ..).trans (hhead k' hk')

omit [DecidableEq ν] in
/-- When all lists are freed or empty, no node is left. -/
theorem Remains.allocated_eq (h : Remains D lists m) (hempty : ∀ k ∉ D, lists k = []) : m.nodes.allocated = ∅ := by
  obtain ⟨head, nodes, hlists, -⟩ := h
  refine Finset.eq_empty_of_forall_notMem fun x hx => ?_
  obtain ⟨k, hk⟩ := (hlists.mem_iff x).1 hx
  have hdata := hlists.data k
  have hleft : leftOf D lists k = [] := by
    by_cases hkD : k ∈ D
    · exact if_pos hkD
    · exact (leftOf_of_notMem hkD).trans (hempty k hkD)
  rw [hleft, List.map_eq_nil_iff] at hdata
  rw [hdata] at hk
  exact List.not_mem_nil hk

/-! ### The objects -/

/-- The lists of an object that are freed with it. -/
def objLists (children : Bool) (o : ObjId) : Set ListVar := {k | k = .interrupts o ∨ children = true ∧ k = .children o}

theorem Remains.freeLists (h : Remains D lists m) (children : Bool) (ho : o = unspecifiedNode ∨ .obj o ∈ m.records)
    (hD : ∀ k ∈ objLists children o, k ∉ D) :
    ∃ n, m.freeLists children o = some { m with nodes := n } ∧
      Remains (D ∪ objLists children o) lists { m with nodes := n } := by
  unfold Mem.freeLists
  rw [if_pos ho]
  have hinterrupts : .interrupts o ∉ D := hD _ (Or.inl rfl)
  cases children with
  | false =>
    obtain ⟨n, hrun, hleft⟩ := h.freeList hinterrupts
    have hset : D ∪ objLists false o = insert (.interrupts o) D := by
      ext k
      simp [objLists, or_comm]
    rw [hset]
    exact ⟨n, hrun, hleft⟩
  | true =>
    obtain ⟨n₁, hrun₁, hleft₁⟩ := h.freeList (k := .children o) (hD _ (Or.inr ⟨rfl, rfl⟩))
    obtain ⟨n, hrun, hleft⟩ := hleft₁.freeList (k := .interrupts o) (by simpa using hinterrupts)
    have hset : D ∪ objLists true o = insert (.interrupts o) (insert (.children o) D) := by
      ext k
      simp only [objLists, Set.mem_union, Set.mem_ofPred_eq, Set.mem_insert_iff, true_and]
      tauto
    rw [hset]
    refine ⟨n, ?_, hleft⟩
    rw [if_pos rfl, hrun₁]
    exact hrun

omit [DecidableEq ν] in
theorem freeRecord_eq {r : Record} (hr : r ∈ m.records) :
    m.freeRecord r = some { m with records := m.records.erase r } := if_pos hr

/-- **A loop of `clear_cpu_tree`** frees the objects of the list, their lists and the list. -/
theorem clearObjs_spec (children : Bool) (os : List ObjId) {n : ℕ} (h : Remains D lists m) (hk : k ∉ D)
    (hlists : lists k = os.map .obj) (hnodup : os.Nodup) (hD : ∀ o ∈ os, ∀ k' ∈ objLists children o, k' ∉ D)
    (hkobj : ∀ o, k ∉ objLists children o) (hrecords : ∀ o ∈ os, .obj o ∈ m.records) (hn : os.length ≤ n) :
    ∃ m', Mem.clearObjs k children n m = some m' ∧
      Remains (D ∪ {k' | ∃ o ∈ os, k' ∈ objLists children o}) (Function.update lists k []) m' ∧
      m'.records = m.records \ (os.map Record.obj).toFinset := by
  induction os generalizing m D lists n with
  | nil =>
    obtain ⟨l, hstored, hdata, -⟩ := h.stored hk
    rw [hlists, List.map_nil, List.map_eq_nil_iff] at hdata
    subst hdata
    have hhead : m.head k = none := hstored.seg
    refine ⟨m, ?_, ?_, by simp⟩
    · cases n <;> exact if_pos hhead
    · have hupdate : Function.update lists k [] = lists := by
        rw [← List.map_nil (f := Record.obj), ← hlists, Function.update_eq_self]
      have hset : D ∪ {k' | ∃ o ∈ ([] : List ObjId), k' ∈ objLists children o} = D := by simp
      rw [hupdate, hset]
      exact h
  | cons o os ih =>
    obtain ⟨n, rfl⟩ : ∃ n', n = n' + 1 := ⟨n - 1, by rw [List.length_cons] at hn; omega⟩
    obtain ⟨ho, hnodup⟩ := List.nodup_cons.1 hnodup
    obtain ⟨l, hstored, hdata, -⟩ := h.stored hk
    rw [hlists] at hdata
    obtain ⟨x, l, rfl, hx, -⟩ := List.map_eq_cons_iff.1 hdata
    have hhead : m.head k = some x := hstored.seg.1
    obtain ⟨n₁, hfree, hleft⟩ := h.freeLists children (Or.inr (hrecords o List.mem_cons_self)) (hD o List.mem_cons_self)
    set m₂ : Mem ν := { m with nodes := n₁, records := m.records.erase (.obj o) } with hm₂
    have hleft₂ : Remains (D ∪ objLists children o) lists m₂ := hleft
    have hk₂ : k ∉ D ∪ objLists children o := fun hmem => hmem.elim hk (hkobj o)
    -- the node of the object is still there when the object has been freed
    obtain ⟨l₂, hstored₂, hdata₂, hchange⟩ := hleft₂.stored hk₂
    rw [hlists] at hdata₂
    obtain ⟨x₂, l₂, rfl, -, hrest⟩ := List.map_eq_cons_iff.1 hdata₂
    obtain rfl : x = x₂ := Option.some.inj (hhead.symm.trans hstored₂.seg.1)
    obtain ⟨n₃, q, hdelete, hchanges⟩ := gListDeleteLink_spec hstored₂ List.mem_cons_self
    rw [List.erase_cons_head] at hchanges
    have hleft₃ := hchange n₃ q l₂ (os.map .obj) hchanges (by
      rw [hchanges.map_data fun y hy => hstored₂.allocated y (List.mem_cons_of_mem x hy), hrest])
    obtain ⟨m', hrun, hleft', hrecords'⟩ := ih hleft₃ hk₂ (Function.update_self ..) hnodup
      (fun p hp k' hk' hmem => hmem.elim (hD p (List.mem_cons_of_mem o hp) k' hk') fun hmem => by
        have hne : p ≠ o := ne_of_mem_of_not_mem hp ho
        rcases hk' with rfl | ⟨-, rfl⟩ <;> rcases hmem with e | ⟨-, e⟩ <;> cases e <;> exact hne rfl)
      (fun p hp => Finset.mem_erase.2 ⟨fun e => ho (Record.obj.inj e ▸ hp), hrecords p (List.mem_cons_of_mem o hp)⟩)
      (Nat.le_of_succ_le_succ hn)
    refine ⟨m', ?_, ?_, ?_⟩
    · unfold Mem.clearObjs
      have hdatum : m.nodes.datum x = some (.obj o) :=
        (Nodes.datum_eq (hstored.allocated x List.mem_cons_self)).trans (congrArg some hx)
      rw [gListFirst_eq hstored, hhead, if_neg (Option.some_ne_none x)]
      simp only [Option.bind_some, hdatum, hfree]
      rw [freeRecord_eq (m := { m with nodes := n₁ }) (hrecords o List.mem_cons_self)]
      change (gListDeleteLink m₂.nodes (m₂.head k) (some x)).bind _ = _
      rw [hdelete]
      exact hrun
    · have hset : D ∪ objLists children o ∪ {k' | ∃ p ∈ os, k' ∈ objLists children p} =
          D ∪ {k' | ∃ p ∈ o :: os, k' ∈ objLists children p} := by
        ext k'
        simp [or_assoc]
      rw [hset, Function.update_idem] at hleft'
      exact hleft'
    · rw [hrecords', List.map_cons, List.toFinset_cons, Finset.sdiff_insert]
      change m.records.erase (.obj o) \ _ = _
      rw [Finset.erase_sdiff_comm]

/-! ### The irqs -/

theorem foldlM_erase {is : List IrqId} (hnodup : is.Nodup) {u : Finset Record} (h : ∀ i ∈ is, .irq i ∈ u) :
    is.foldlM (fun u i => if Record.irq i ∈ u then some (u.erase (.irq i)) else none) u =
      some (u \ (is.map Record.irq).toFinset) := by
  induction is generalizing u with
  | nil => simp
  | cons i is ih =>
    obtain ⟨hi, hnodup⟩ := List.nodup_cons.1 hnodup
    rw [List.foldlM_cons, if_pos (h i List.mem_cons_self), Option.bind_eq_bind, Option.bind_some,
      ih hnodup fun j hj => Finset.mem_erase.2 ⟨fun e => ?_, h j (List.mem_cons_of_mem i hj)⟩,
      List.map_cons, List.toFinset_cons, Finset.sdiff_insert, Finset.erase_sdiff_comm]
    cases e
    exact hi hj

/-- The irqs of a list are freed. An empty list is not walked, as the database is empty then. -/
theorem forEachIrq_freeIrq {is : List IrqId} {l : List ν} (hstored : Stored m.nodes (m.head k) l)
    (hdata : l.map m.nodes.data = is.map .irq) (hnodup : is.Nodup) (hrecords : ∀ i ∈ is, .irq i ∈ m.records)
    (hdb : m.head k = none → m.head .interruptsDb = none) :
    Mem.forEachIrq id k Mem.freeIrq m = some { m with records := m.records \ (is.map Record.irq).toFinset } := by
  unfold Mem.forEachIrq
  dsimp only [id]
  by_cases hhead : m.head k = none
  · have hnil : l = [] := List.head?_eq_none_iff.1 (hstored.seg.head_eq ▸ hhead)
    rw [hnil, List.map_nil, eq_comm, List.map_eq_nil_iff] at hdata
    rw [if_pos hhead, hdb hhead, hdata]
    cases m.nodes.allocated.card <;> simp [gListFirst, each]
  · rw [if_neg hhead, gListFirst_eq hstored, Option.bind_some, hstored.seg.head_eq]
    have hrel : Option.Rel (fun t u => t = { m with records := u })
        (each Mem.nodes (fun
          | .irq i => Mem.freeIrq i
          | .obj _ => fun _ => none) m.nodes.allocated.card l.head? m)
        (is.foldlM (fun u i => if Record.irq i ∈ u then some (u.erase (.irq i)) else none) m.records) := by
      refine LinkedList.each_foldlM_rel (R := fun t u => t = { m with records := u })
        (fun (t : Mem ν) x => (t.nodes.data x).irqId) ?_ ?_ rfl hstored.length_le
      · rintro _ u rfl
        rw [hstored.seg.head_eq] at hstored
        refine ⟨hstored, ?_⟩
        have hmap := congrArg (List.map Record.irqId) hdata
        rw [List.map_map, List.map_map] at hmap
        exact hmap.trans (List.map_id _)
      · rintro x hx _ u rfl
        have hmem : m.nodes.data x ∈ is.map Record.irq := by
          rw [← hdata]
          exact List.mem_map_of_mem hx
        obtain ⟨i, -, e⟩ := List.mem_map.1 hmem
        change Option.Rel _ ((match m.nodes.data x with
          | .irq i => Mem.freeIrq i
          | .obj _ => fun _ => none) _) (if Record.irq (m.nodes.data x).irqId ∈ u then _ else _)
        rw [← e]
        change Option.Rel _ (Mem.freeRecord (.irq i) { m with records := u })
          (if Record.irq i ∈ u then some (u.erase (.irq i)) else none)
        unfold Mem.freeRecord
        by_cases hi : Record.irq i ∈ u
        · rw [if_pos hi, if_pos hi]
          exact .some rfl
        · rw [if_neg hi, if_neg hi]
          exact .none
    rw [foldlM_erase hnodup hrecords] at hrel
    cases hrun : each Mem.nodes (fun
        | .irq i => Mem.freeIrq i
        | .obj _ => fun _ => none) m.nodes.allocated.card l.head? m with
    | none => rw [hrun] at hrel; cases hrel
    | some m' =>
      rw [hrun] at hrel
      cases hrel with
      | some e => rw [e]

/-- **The irqs of a list are freed**, and then the list. -/
theorem Remains.freeIrqs {is : List IrqId} (h : Remains D lists m) (hk : k ∉ D) (hlists : lists k = is.map .irq)
    (hnodup : is.Nodup) (hrecords : ∀ i ∈ is, .irq i ∈ m.records)
    (hdb : m.head k = none → m.head .interruptsDb = none) :
    ∃ m', (Mem.forEachIrq id k Mem.freeIrq m).bind (Mem.freeList k) = some m' ∧ Remains (insert k D) lists m' ∧
      m'.records = m.records \ (is.map Record.irq).toFinset := by
  obtain ⟨l, hstored, hdata, -⟩ := h.stored hk
  have hleft : Remains D lists { m with records := m.records \ (is.map Record.irq).toFinset } := h
  obtain ⟨n, hrun, hleft'⟩ := hleft.freeList hk
  refine ⟨_, ?_, hleft', rfl⟩
  rw [forEachIrq_freeIrq hstored (hdata.trans hlists) hnodup hrecords hdb]
  exact hrun

/-! ### The tree -/

theorem Remains.length_le (h : Remains D lists m) (hk : k ∉ D) : (lists k).length ≤ m.nodes.allocated.card := by
  obtain ⟨l, hstored, hdata, -⟩ := h.stored hk
  rw [← hdata, List.length_map]
  exact hstored.length_le

/-- The lists of the objects in `os` are not among the lists of other ones. -/
theorem objLists_apart {a b : Bool} {os : List ObjId} (ho : o ∉ os) (hk : k ∈ objLists a o) :
    ¬∃ p ∈ os, k ∈ objLists b p := by
  rintro ⟨p, hp, hk'⟩
  have hne : p ≠ o := ne_of_mem_of_not_mem hp ho
  rcases hk with rfl | ⟨-, rfl⟩ <;> rcases hk' with e | ⟨-, e⟩ <;> cases e <;> exact hne rfl

/-- The lists that are gone with the objects in `os`. -/
def goneLists (os : List ObjId) : Set ListVar := insert .numaNodes {k | ∃ o ∈ os, k ∈ objLists true o}

theorem freeNumaNodeList_spec (h : Remains ∅ lists m) (hnuma : lists .numaNodes = [.obj unspecifiedNode]) :
    ∃ m', m.freeNumaNodeList = some m' ∧
      Remains (goneLists [unspecifiedNode]) lists m' ∧ m'.records = m.records := by
  obtain ⟨l, hstored, hdata, -⟩ := h.stored (k := .numaNodes) (Set.notMem_empty _)
  rw [hnuma] at hdata
  obtain ⟨x, l, rfl, hx, hnil⟩ := List.map_eq_cons_iff.1 hdata
  obtain rfl := List.map_eq_nil_iff.1 hnil
  obtain ⟨c, hc⟩ : ∃ c, m.nodes.allocated.card = c + 1 :=
    ⟨m.nodes.allocated.card - 1, (Nat.succ_pred_eq_of_pos (Nat.lt_of_lt_of_le Nat.one_pos hstored.length_le)).symm⟩
  obtain ⟨n, hfree, hleft⟩ := h.freeLists true (Or.inl rfl) fun k _ => Set.notMem_empty k
  have hset : ∅ ∪ objLists true unspecifiedNode = {k | ∃ o ∈ [unspecifiedNode], k ∈ objLists true o} := by
    ext k
    simp
  rw [hset] at hleft
  obtain ⟨n', hfree', hleft'⟩ := hleft.freeList (k := .numaNodes) (by simp [objLists])
  refine ⟨_, ?_, hleft'.setNull (Set.mem_insert ..), rfl⟩
  have hnode : m.freeNumaNode unspecifiedNode = some { m with nodes := n } := by
    rw [Mem.freeNumaNode, hfree, Option.bind_some, if_pos rfl]
  have hhead : m.head .numaNodes = some x := hstored.seg.1
  unfold Mem.freeNumaNodeList
  have hsingle : Stored m.nodes (m.head .numaNodes) ([] ++ [x]) := hstored
  rw [hhead, hc, LinkedList.each_cons hsingle, hx]
  dsimp only
  rw [hnode, Option.bind_some, List.head?_nil, each, Option.bind_some, hfree']
  rfl

omit [DecidableEq ν] in
/-- Empty lists count as freed. -/
theorem Remains.mono {D' : Set ListVar} (h : Remains D lists m) (hD : D ⊆ D') (hempty : ∀ k ∈ D', k ∉ D → lists k = []) :
    Remains D' lists m := by
  obtain ⟨head, nodes, hlists, hhead⟩ := h
  have hleft : leftOf D' lists = leftOf D lists := by
    funext k
    by_cases hk : k ∈ D
    · exact (if_pos (hD hk)).trans (if_pos hk).symm
    · rw [leftOf_of_notMem hk]
      by_cases hk' : k ∈ D'
      · exact (if_pos hk').trans (hempty k hk' hk).symm
      · exact leftOf_of_notMem hk'
  exact ⟨head, nodes, hleft ▸ hlists, fun k hk => hhead k fun hmem => hk (hD hmem)⟩

/-- One of the loops, when the objects of `gone` have been freed. The lists of children that it leaves are empty. -/
theorem Remains.clearObjs {gone os : List ObjId} (children : Bool) (h : Remains (goneLists gone) lists m)
    (hk : k ≠ .numaNodes ∧ ∀ o, k ∉ objLists true o) (hlists : lists k = os.map .obj) (hnodup : (gone ++ os).Nodup)
    (hkids : children = false → ∀ o ∈ os, lists (.children o) = []) (hrecords : ∀ o ∈ os, .obj o ∈ m.records) :
    ∃ m', Mem.clearObjs k children m.nodes.allocated.card m = some m' ∧
      Remains (goneLists (gone ++ os)) (Function.update lists k []) m' ∧
      m'.records = m.records \ (os.map Record.obj).toFinset := by
  have hkD : k ∉ goneLists gone := by
    rintro (e | ⟨o, -, ho⟩)
    · exact hk.1 e
    · exact hk.2 o ho
  have hsub : ∀ o, objLists children o ⊆ objLists true o := fun o k' hk' => hk'.imp id fun e => ⟨rfl, e.2⟩
  have hlength : os.length ≤ m.nodes.allocated.card := by
    have hle := h.length_le hkD
    rwa [hlists, List.length_map] at hle
  obtain ⟨m', hrun, hleft, hrecords'⟩ := clearObjs_spec children os h hkD hlists hnodup.of_append_right
    (fun o ho k' hk' hmem => by
      rcases hmem with rfl | hmem
      · rcases hk' with e | ⟨-, e⟩ <;> cases e
      · exact objLists_apart (fun hgone => List.disjoint_of_nodup_append hnodup hgone ho) hk' hmem)
    (fun o ho => hk.2 o (hsub o ho)) hrecords hlength
  refine ⟨m', hrun, hleft.mono ?_ ?_, hrecords'⟩
  · rintro k' ((rfl | ⟨o, ho, hk'⟩) | ⟨o, ho, hk'⟩)
    · exact Set.mem_insert ..
    · exact Or.inr ⟨o, List.mem_append_left _ ho, hk'⟩
    · exact Or.inr ⟨o, List.mem_append_right _ ho, hsub o hk'⟩
  · rintro k' (rfl | ⟨o, ho, hk'⟩) hnot
    · exact absurd (Or.inl (Set.mem_insert ..)) hnot
    · rcases List.mem_append.1 ho with ho | ho
      · exact absurd (Or.inl (Or.inr ⟨o, ho, hk'⟩)) hnot
      · -- only the children can be left
        rcases hk' with rfl | ⟨-, rfl⟩
        · exact absurd (Or.inr ⟨o, ho, Or.inl rfl⟩) hnot
        · rw [Function.update_of_ne fun e => hk.2 o (Or.inr ⟨rfl, e.symm⟩)]
          cases children with
          | true => exact absurd (Or.inr ⟨o, ho, Or.inr ⟨rfl, rfl⟩⟩) hnot
          | false => exact hkids rfl o ho

/-- Freeing objects leaves the records of the others. -/
theorem mem_sdiff_objs {records : Finset Record} {os : List ObjId} (h : .obj o ∈ records) (ho : o ∉ os) :
    .obj o ∈ records \ (os.map Record.obj).toFinset :=
  Finset.mem_sdiff.2 ⟨h, by simpa using ho⟩

/-- **`clear_cpu_tree`**, behind `free_numa_node_list`: the lists of irqs are left. -/
theorem clearCpuTree_spec (hlive : Live s) (h : Remains (goneLists [unspecifiedNode]) s.lists m)
    (hrecords : ∀ o ∈ s.topology, o ≠ unspecifiedNode → .obj o ∈ m.records) :
    ∃ m' lists, m.clearCpuTree = some m' ∧ Remains (goneLists s.topology) lists m' ∧
      (∀ k, k = .interruptsDb ∨ k = .bannedIrqs ∨ k = .rebalanceIrqList → lists k = s.lists k) ∧
      (∀ k ∉ goneLists s.topology, k ≠ .interruptsDb → k ≠ .bannedIrqs → k ≠ .rebalanceIrqList → lists k = []) ∧
      m'.records = m.records \ ((s.packages ++ s.cacheDomains ++ s.cpus).map Record.obj).toFinset := by
  have hnodup := hlive.topo.topology_nodup
  have htopology : s.topology = [unspecifiedNode] ++ s.packages ++ s.cacheDomains ++ s.cpus := by
    rw [State.topology, hlive.topo.numaNodes]
  rw [htopology] at hnodup
  have hcpus := List.disjoint_of_nodup_append hnodup
  have hcaches := List.disjoint_of_nodup_append hnodup.of_append_left
  have hpackages := List.disjoint_of_nodup_append hnodup.of_append_left.of_append_left
  have hnode : ∀ {os : List ObjId}, [unspecifiedNode].Disjoint os → ∀ o ∈ os, o ≠ unspecifiedNode :=
    fun hdisjoint o ho e => hdisjoint (List.mem_singleton.2 e) ho
  obtain ⟨m₁, hrun₁, h₁, hrecords₁⟩ := h.clearObjs (k := .packages) true ⟨by decide, by simp [objLists]⟩ rfl
    hnodup.of_append_left.of_append_left (by simp)
    (fun o ho => hrecords o (by simp [htopology, ho]) (hnode hpackages o ho))
  set m₁' : Mem ν := { m₁ with vars := { m₁.vars with packageCount := 0 } }
  have h₁' : Remains _ _ m₁' := h₁
  obtain ⟨m₂, hrun₂, h₂, hrecords₂⟩ := h₁'.clearObjs (k := .cacheDomains) true ⟨by decide, by simp [objLists]⟩ rfl
    hnodup.of_append_left (by simp) (fun o ho => by
      change _ ∈ m₁.records
      rw [hrecords₁]
      refine mem_sdiff_objs (hrecords o (by simp [htopology, ho]) ?_) fun hmem =>
        hcaches (List.mem_append_right _ hmem) ho
      exact fun e => hcaches (List.mem_append_left _ (List.mem_singleton.2 e)) ho)
  set m₂' : Mem ν := { m₂ with vars := { m₂.vars with cacheDomainCount := 0 } }
  have h₂' : Remains _ _ m₂' := h₂
  obtain ⟨m₃, hrun₃, h₃, hrecords₃⟩ := h₂'.clearObjs (k := .cpus) false ⟨by decide, by simp [objLists]⟩ rfl hnodup
    (fun _ o ho => by
      have hkids : (s.objs o).children = [] := hlive.topo.cpu_kids o ho
      change (if o ∈ s.topology then (s.objs o).children.map Record.obj else []) = []
      rw [hkids, List.map_nil, ite_self])
    (fun o ho => by
      change _ ∈ m₂.records
      rw [hrecords₂]
      refine mem_sdiff_objs ?_ fun hmem => hcpus (List.mem_append_right _ hmem) ho
      change _ ∈ m₁.records
      rw [hrecords₁]
      refine mem_sdiff_objs (hrecords o (by simp [htopology, ho]) ?_) fun hmem =>
        hcpus (List.mem_append_left _ (List.mem_append_right _ hmem)) ho
      exact fun e => hcpus (List.mem_append_left _ (List.mem_append_left _ (List.mem_singleton.2 e))) ho)
  rw [← htopology] at h₃
  refine ⟨{ m₃ with vars := { m₃.vars with coreCount := 0 } }, _, ?_, h₃, ?_, ?_, ?_⟩
  · unfold Mem.clearCpuTree
    rw [hrun₁, Option.bind_some]
    change (Mem.clearObjs .cacheDomains true m₁'.nodes.allocated.card m₁').bind _ = _
    rw [hrun₂, Option.bind_some]
    change (Mem.clearObjs .cpus false m₂'.nodes.allocated.card m₂').map _ = _
    rw [hrun₃]
    rfl
  · rintro k (rfl | rfl | rfl) <;> rfl
  · intro k hk hdb hbanned hrebalance
    cases k with
    | interruptsDb => exact absurd rfl hdb
    | bannedIrqs => exact absurd rfl hbanned
    | rebalanceIrqList => exact absurd rfl hrebalance
    | numaNodes => exact absurd (Set.mem_insert ..) hk
    | packages | cacheDomains | cpus => rfl
    | children o => exact if_neg fun ho => hk (Or.inr ⟨o, ho, Or.inr ⟨rfl, rfl⟩⟩)
    | interrupts o => exact if_neg fun ho => hk (Or.inr ⟨o, ho, Or.inl rfl⟩)
  · change m₃.records = _
    rw [hrecords₃]
    change m₂.records \ _ = _
    rw [hrecords₂]
    change (m₁.records \ _) \ _ = _
    rw [hrecords₁]
    ext r
    simp only [Finset.mem_sdiff, List.map_append, List.toFinset_append, Finset.mem_union]
    tauto

/-- **`free_irq_db`.** -/
theorem freeIrqDb_spec (h : Remains D lists m)
    (hlists : ∀ k, k = .interruptsDb ∨ k = .bannedIrqs ∨ k = .rebalanceIrqList → k ∉ D ∧ lists k = s.lists k)
    (hnodup : s.known.Nodup) (hrecords : ∀ i ∈ s.known, .irq i ∈ m.records) :
    ∃ m', m.freeIrqDb = some m' ∧
      Remains (insert .rebalanceIrqList (insert .bannedIrqs (insert .interruptsDb D))) lists m' ∧
      m'.records = m.records \ (s.known.map Record.irq).toFinset := by
  obtain ⟨hdb, hdblists⟩ := hlists .interruptsDb (by simp)
  obtain ⟨hbanned, hbannedlists⟩ := hlists .bannedIrqs (by simp)
  obtain ⟨hrebalance, -⟩ := hlists .rebalanceIrqList (by simp)
  have hdisjoint := List.disjoint_of_nodup_append hnodup
  obtain ⟨m₁, hrun₁, h₁, hrecords₁⟩ := h.freeIrqs hdb hdblists hnodup.of_append_left
    (fun i hi => hrecords i (List.mem_append_left _ hi)) id
  have h₁' := h₁.setNull (Set.mem_insert ..)
  obtain ⟨m₂, hrun₂, h₂, hrecords₂⟩ := h₁'.freeIrqs (k := .bannedIrqs) (by simpa using hbanned) hbannedlists
    hnodup.of_append_right (fun i hi => by
      change _ ∈ m₁.records
      rw [hrecords₁, Finset.mem_sdiff]
      refine ⟨hrecords i (List.mem_append_right _ hi), fun hmem => hdisjoint (a := i) ?_ hi⟩
      simpa using hmem) fun _ => show Function.update m₁.head .interruptsDb none .interruptsDb = none from
        Function.update_self ..
  have h₂' := h₂.setNull (Set.mem_insert ..)
  obtain ⟨n, hrun₃, h₃⟩ := h₂'.freeList (k := .rebalanceIrqList) (by simpa using hrebalance)
  refine ⟨_, ?_, h₃.setNull (Set.mem_insert ..), ?_⟩
  · unfold Mem.freeIrqDb
    rw [← Option.bind_assoc, hrun₁, Option.bind_some, ← Option.bind_assoc, hrun₂, Option.bind_some]
    dsimp only
    rw [hrun₃]
    rfl
  · change m₂.records = _
    rw [hrecords₂]
    change m₁.records \ _ = _
    rw [hrecords₁]
    ext r
    simp only [Finset.mem_sdiff, State.known, List.map_append, List.toFinset_append, Finset.mem_union]
    tauto

/-- **`free_object_tree`** frees everything. -/
theorem freeObjectTree_spec (hlive : Live s) (h : Rep objs m s) :
    ∃ m', m.freeObjectTree = some m' ∧ m'.nodes.allocated = ∅ ∧ m'.records = ∅ := by
  obtain ⟨nodes, hrep, -⟩ := h
  have hall : leftOf ∅ s.lists = s.lists := funext fun k => leftOf_of_notMem (Set.notMem_empty k)
  have h₀ : Remains ∅ s.lists m := ⟨m.head, nodes, hall.symm ▸ hrep.toLists, fun _ _ => rfl⟩
  have hnuma : s.lists .numaNodes = [.obj unspecifiedNode] := by rw [State.lists, hlive.topo.numaNodes]; rfl
  obtain ⟨m₁, hrun₁, h₁, hrecords₁⟩ := freeNumaNodeList_spec h₀ hnuma
  obtain ⟨m₂, lists, hrun₂, h₂, hkept, hfreed, hrecords₂⟩ := clearCpuTree_spec hlive h₁ fun o ho hne => by
    rw [hrecords₁]
    exact (hrep.records _).2 ⟨ho, hne⟩
  have hleft : ∀ k, k = .interruptsDb ∨ k = .bannedIrqs ∨ k = .rebalanceIrqList → k ∉ goneLists s.topology := by
    rintro k (rfl | rfl | rfl) <;> simp [goneLists, objLists]
  obtain ⟨m₃, hrun₃, h₃, hrecords₃⟩ := freeIrqDb_spec h₂ (fun k hk => ⟨hleft k hk, hkept k hk⟩)
      hlive.db.number_nodup.of_map fun i hi => by
    rw [hrecords₂, hrecords₁]
    simp [(hrep.records (.irq i)).2 hi]
  refine ⟨m₃, ?_, h₃.allocated_eq fun k hk => ?_, ?_⟩
  · rw [Mem.freeObjectTree, hrun₁, Option.bind_some, hrun₂, Option.bind_some, hrun₃]
  · simp only [Set.mem_insert_iff, not_or] at hk
    exact hfreed k hk.2.2.2 hk.2.2.1 hk.2.1 hk.1
  · rw [hrecords₃, hrecords₂, hrecords₁]
    refine Finset.eq_empty_of_forall_notMem fun r hr => ?_
    simp only [Finset.mem_sdiff, hrep.records] at hr
    obtain ⟨⟨halloc, hobj⟩, hirq⟩ := hr
    cases r with
    | irq i => exact hirq (by simpa using (show i ∈ s.known from halloc))
    | obj o =>
      obtain ⟨ho, hne⟩ := halloc
      have ho' := ((mem_topology hlive.topo).1 ho).resolve_left hne
      exact hobj (by simpa [or_assoc] using ho')

/-- **Freeing in memory.** In every reachable state `free_object_tree` comes to its end without undefined behaviour,
and no node and no record is allocated any more. -/
theorem freeing_in_memory {pc : Pc} (h : Reach anyStep pc s) (hpc : pc.phase = .live) (hrep : Rep objs m s) :
    ∃ m', m.freeObjectTree = some m' ∧ m'.nodes.allocated = ∅ ∧ m'.records = ∅ :=
  freeObjectTree_spec (h.live hpc) hrep

/-- The tree of two cpus with an irq. -/
theorem freeing_in_memory_twoCpus : ∃ (s : State) (m' : Mem (ListVar × ℕ)), s.cpus = [1, 4] ∧
    s.interruptsDb = [0] ∧ s.mem.freeObjectTree = some m' ∧ m'.nodes.allocated = ∅ ∧ m'.records = ∅ := by
  have hrun : (execs (List.replicate 4 twoCpusEnv) (.start, State.initial {} fun _ => 0)).map (fun r =>
      (r.1, r.2.cpus, r.2.interruptsDb)) = some (.loop, [1, 4], [0]) := by
    decide +kernel
  obtain ⟨⟨pc, s⟩, hr, e⟩ := Option.map_eq_some_iff.1 hrun
  simp only [Prod.mk.injEq] at e
  obtain ⟨rfl, hcpus, hdb⟩ := e
  obtain ⟨m', hm', hnodes, hrecords⟩ := freeing_in_memory ((Reach.init {} (fun _ => 0) rfl).execs_any hr) rfl
    ⟨_, mem_rep s, fun _ _ => rfl⟩
  exact ⟨s, m', hcpus, hdb, hm', hnodes, hrecords⟩

end IrqBalance
