import IrqBalance.Descent
import IrqBalance.GListOps

/-!
# The lists in memory

A second model of the program's data: the lists are pointers to nodes that `malloc` has allocated, and the nodes
point to records. `Rep` says that a memory holds the lists of a state: it has the nodes of these lists and the
records of its objects and irqs, and nothing else is allocated.

`migrate_irq` does to the memory what its model does to the state (`migrateIrq_rep`), and `for_each_irq` and
`for_each_object` go through the nodes as the models of the loops go through the lists, also when the irq that
is visited is unlinked and its node is freed (`forEachIrq_rel`, `forEachObject_rel`).
-/

namespace IrqBalance

open LinkedList (Nodes Malloc Stored Holds Lists Changes cells store each)

/-! ### The memory -/

/-- What the data of a node points to. -/
inductive Record
  | obj (o : ObjId)
  | irq (i : IrqId)
deriving DecidableEq, Inhabited

/-- The variables and fields that point to lists. -/
inductive ListVar
  | numaNodes
  | packages
  | cacheDomains
  | cpus
  | children (o : ObjId)
  | interrupts (o : ObjId)
  | rebalanceIrqList
  | interruptsDb
  | bannedIrqs
deriving DecidableEq

/-- `&rebalance_irq_list`, or `&obj->interrupts`. -/
def ListVar.slot : Option ObjId → ListVar
  | none => .rebalanceIrqList
  | some o => .interrupts o

/-- The lists of objects. -/
def ListVar.ofObjs : ListVar → Bool
  | .numaNodes | .packages | .cacheDomains | .cpus | .children _ => true
  | _ => false

/-- The lists of a state. Objects that have been freed have none. -/
def State.lists (s : State) : ListVar → List Record
  | .numaNodes => s.numaNodes.map .obj
  | .packages => s.packages.map .obj
  | .cacheDomains => s.cacheDomains.map .obj
  | .cpus => s.cpus.map .obj
  | .children o => if o ∈ s.topology then (s.objs o).children.map .obj else []
  | .interrupts o => if o ∈ s.topology then (s.objs o).interrupts.map .irq else []
  | .rebalanceIrqList => s.rebalanceIrqList.map .irq
  | .interruptsDb => s.interruptsDb.map .irq
  | .bannedIrqs => s.bannedIrqs.map .irq

/-- The state without its lists. -/
def State.unlisted (s : State) : State :=
  { s with
    objs := fun o => { s.objs o with children := [], interrupts := [] }
    numaNodes := [], packages := [], cacheDomains := [], cpus := []
    rebalanceIrqList := [], interruptsDb := [], bannedIrqs := [] }

/-- The variables and the memory. The lists in `vars` are not used. -/
structure Mem (ν : Type) where
  vars : State
  nodes : Nodes ν Record
  head : ListVar → Option ν
  /-- the records that `malloc` has allocated -/
  records : Finset Record

section Source

variable {ν : Type} [DecidableEq ν]

namespace Mem

/-- Write to the irq `i`. -/
def modIrq (m : Mem ν) (i : IrqId) (f : IrqInfo → IrqInfo) : Mem ν := { m with vars := m.vars.modIrq i f }

/-- Write to the object `o`. -/
def modObj (m : Mem ν) (o : ObjId) (f : TopoObj → TopoObj) : Mem ν := { m with vars := m.vars.modObj o f }

/-- Write to a list: its nodes, and the variable. -/
def setList (m : Mem ν) (k : ListVar) (r : Nodes ν Record × Option ν) : Mem ν :=
  { m with nodes := r.1, head := Function.update m.head k r.2 }

/-- `g_list_length` of a list. -/
def length (m : Mem ν) (k : ListVar) : Option ℕ := gListLength m.nodes (m.head k)

/-- `compare_ints(entry->data, &find)`, for a `find` with the number `irq`; the data of a list of irqs are irqs. -/
def compareInts (m : Mem ν) (irq : ℤ) : Record → ℤ
  | .irq i => (m.vars.irqs i).irq - irq
  | .obj _ => 1

/-- `migrate_irq`. -/
def migrateIrq (malloc : Malloc ν Record) (src dst : Option ObjId) (i : IrqId) (m : Mem ν) : Option (Mem ν) := do
  let irq := (m.vars.irqs i).irq
  let entry ← gListFindCustom m.nodes (m.head (.slot src)) (m.compareInts irq)
  match entry with
  | none => some m
  | some entry =>
    let tmp ← m.nodes.datum entry
    let r ← gListDeleteLink m.nodes (m.head (.slot src)) (some entry)
    let m := m.setList (.slot src) r
    let r ← gListAppend malloc m.nodes (m.head (.slot dst)) tmp
    let m := m.setList (.slot dst) r
    some (m.modIrq i fun info => { info with moved := true })

/-- `sort_irq_list`. -/
def sortIrqList (a : Option ObjId) (m : Mem ν) : Option (Mem ν) :=
  (gListSortNodes (fun x y =>
    match x, y with
    | .irq i, .irq j => sortIrqs m.vars i j
    | _, _ => 0) m.nodes (m.head (.slot a))).map (m.setList (.slot a))

/-- `for_each_object`, for a callback with data; `mem` is the memory in the data. -/
def forEachObject {τ : Type} (mem : τ → Mem ν) (list : ListVar) (cb : ObjId → τ → Option τ) (t : τ) : Option τ :=
  (gListFirst (mem t).nodes ((mem t).head list)).bind fun entry =>
    each (fun t => (mem t).nodes) (fun
      | .obj o => cb o
      | .irq _ => fun _ => none) (mem t).nodes.allocated.card entry t

/-- `for_each_irq`, for a callback with data. -/
def forEachIrq {τ : Type} (mem : τ → Mem ν) (list : ListVar) (cb : IrqId → τ → Option τ) (t : τ) : Option τ :=
  let chosen := if (mem t).head list = none then .interruptsDb else list
  (gListFirst (mem t).nodes ((mem t).head chosen)).bind fun entry =>
    each (fun t => (mem t).nodes) (fun
      | .irq i => cb i
      | .obj _ => fun _ => none) (mem t).nodes.allocated.card entry t

end Mem

end Source

/-! ### A memory holds a state -/

variable {ν : Type}

/-- The record has been allocated by `malloc`; `unspecified_node` has not. -/
def State.Allocated (s : State) : Record → Prop
  | .obj o => o ∈ s.topology ∧ o ≠ unspecifiedNode
  | .irq i => i ∈ s.known

/-- The memory holds the state, with the lists in the nodes `nodes`. -/
structure RepAt (m : Mem ν) (s : State) (nodes : ListVar → List ν) : Prop extends Lists m.nodes m.head nodes s.lists where
  vars : m.vars = s.unlisted
  records : ∀ r, r ∈ m.records ↔ s.Allocated r

/-- The memory holds the state, and the lists of objects are in the nodes `objs`. -/
def Rep (objs : ListVar → List ν) (m : Mem ν) (s : State) : Prop :=
  ∃ nodes, RepAt m s nodes ∧ ∀ k, k.ofObjs = true → nodes k = objs k

section Memory

/-- The lists that can have elements. -/
def State.listVars (s : State) : Finset ListVar :=
  let vars : List ListVar :=
    [.numaNodes, .packages, .cacheDomains, .cpus, .rebalanceIrqList, .interruptsDb, .bannedIrqs]
  (vars ++ s.topology.flatMap fun o => [ListVar.children o, ListVar.interrupts o]).toFinset

/-- A memory that holds the state. -/
def State.mem (s : State) : Mem (ListVar × ℕ) where
  vars := s.unlisted
  nodes := store s.lists s.listVars
  head k := (cells s.lists k).head?
  records := ((s.topology.filter (· ≠ unspecifiedNode)).map Record.obj ++ s.known.map Record.irq).toFinset

/-- **Every state has a memory.** -/
theorem mem_rep (s : State) : RepAt s.mem s (cells s.lists) where
  toLists := LinkedList.store_lists fun k hk => by
    cases k with
    | children o => exact if_neg fun ho => hk (by simp [State.listVars, ho])
    | interrupts o => exact if_neg fun ho => hk (by simp [State.listVars, ho])
    | _ => exact absurd (by simp [State.listVars]) hk
  vars := rfl
  records r := by cases r <;> simp [State.mem, State.Allocated]

end Memory

variable {m m' : Mem ν} {s s' t : State} {nodes nodes' objs : ListVar → List ν} {a dst : Option ObjId} {i : IrqId} {o : ObjId}
variable {k : ListVar} {l : List IrqId}

theorem slot_lists (ha : a ∈ s.slots) : s.lists (.slot a) = (s.slot a).map .irq := by
  cases a with
  | none => rfl
  | some o => exact if_pos (some_mem_slots.1 ha)

theorem slot_injective : Function.Injective ListVar.slot := by
  rintro (_ | o) (_ | p) h <;> first | rfl | cases h
  rfl

theorem slot_ofObjs (a : Option ObjId) : (ListVar.slot a).ofObjs = false := by cases a <;> rfl

/-- Writing to an irq list. -/
theorem setSlot_lists (ha : a ∈ s.slots) (l : List IrqId) :
    (s.setSlot l a).lists = Function.update s.lists (.slot a) (l.map .irq) := by
  funext k
  cases a with
  | none => cases k <;> rfl
  | some o =>
    have ho := some_mem_slots.1 ha
    have htopo : (s.setSlot l (some o)).topology = s.topology := rfl
    by_cases hk : k = .interrupts o
    · subst hk
      rw [ListVar.slot, Function.update_self, State.lists, htopo, if_pos ho, State.setSlot, State.modObj_objs_self]
    · rw [ListVar.slot, Function.update_of_ne hk]
      cases k with
      | children p =>
        rw [State.lists, State.lists, htopo]
        congr 2
        rw [State.setSlot, State.modObj_objs]
        split_ifs <;> rfl
      | interrupts p =>
        have hp : p ≠ o := fun e => hk (by rw [e])
        rw [State.lists, State.lists, htopo]
        congr 2
        rw [State.setSlot, State.modObj_objs_of_ne hp]
      | _ => rfl

theorem setSlot_unlisted (l : List IrqId) (a : Option ObjId) : (s.setSlot l a).unlisted = s.unlisted := by
  cases a with
  | none => rfl
  | some o =>
    unfold State.setSlot State.unlisted State.modObj
    congr 1
    funext p
    dsimp only
    split_ifs <;> rfl

theorem modObj_unlisted {f : TopoObj → TopoObj}
    (hf : ∀ ob, f { ob with children := [], interrupts := [] } = { f ob with children := [], interrupts := [] })
    (s : State) (o : ObjId) : (s.modObj o f).unlisted = s.unlisted.modObj o f := by
  unfold State.unlisted State.modObj
  congr 1
  funext p
  dsimp only
  split_ifs
  · exact (hf _).symm
  · rfl

theorem setSlot_slots (s : State) (l : List IrqId) (a : Option ObjId) : (s.setSlot l a).slots = s.slots := by
  cases a <;> rfl

theorem setSlot_allocated (s : State) (l : List IrqId) (a : Option ObjId) :
    (s.setSlot l a).Allocated = s.Allocated := by
  cases a <;> (funext r; cases r <;> rfl)

/-- A list of irqs has been changed. -/
theorem RepAt.update (h : RepAt m s nodes) (ha : a ∈ s.slots) {n : Nodes ν Record} {q : Option ν} {l' : List ν}
    (hc : Changes m.nodes n (nodes (.slot a)) q l') (hl : l'.map n.data = l.map .irq) :
    RepAt (m.setList (.slot a) (n, q)) (s.setSlot l a) (Function.update nodes (.slot a) l') where
  toLists := by
    rw [setSlot_lists ha]
    exact h.toLists.update hc hl
  vars := by
    rw [setSlot_unlisted]
    exact h.vars
  records r := by
    rw [setSlot_allocated]
    exact h.records r

theorem RepAt.modIrq (h : RepAt m s nodes) (i : IrqId) (f : IrqInfo → IrqInfo) :
    RepAt (m.modIrq i f) (s.modIrq i f) nodes where
  toLists := by
    have hlists : (s.modIrq i f).lists = s.lists := by funext k; cases k <;> rfl
    rw [hlists]
    exact h.toLists
  vars := congrArg (State.modIrq · i f) h.vars
  records r := by
    have halloc : (s.modIrq i f).Allocated r ↔ s.Allocated r := by cases r <;> exact Iff.rfl
    rw [halloc]
    exact h.records r

/-- A write to an object that leaves its lists. -/
theorem RepAt.modObj (h : RepAt m s nodes) (o : ObjId) {f : TopoObj → TopoObj}
    (hf : ∀ ob, (f ob).children = ob.children ∧ (f ob).interrupts = ob.interrupts)
    (hf' : ∀ ob, f { ob with children := [], interrupts := [] } = { f ob with children := [], interrupts := [] }) :
    RepAt (m.modObj o f) (s.modObj o f) nodes where
  toLists := by
    have hkeep : ∀ p, ((s.modObj o f).objs p).children = (s.objs p).children ∧
        ((s.modObj o f).objs p).interrupts = (s.objs p).interrupts := fun p => by
      rw [State.modObj_objs]
      split_ifs
      · exact hf _
      · exact ⟨rfl, rfl⟩
    have htopo : (s.modObj o f).topology = s.topology := rfl
    have hlists : (s.modObj o f).lists = s.lists := by
      funext k
      cases k with
      | children p => rw [State.lists, State.lists, htopo, (hkeep p).1]
      | interrupts p => rw [State.lists, State.lists, htopo, (hkeep p).2]
      | _ => rfl
    rw [hlists]
    exact h.toLists
  vars := (congrArg (State.modObj · o f) h.vars).trans (modObj_unlisted hf' s o).symm
  records r := by
    have halloc : (s.modObj o f).Allocated r ↔ s.Allocated r := by cases r <;> exact Iff.rfl
    rw [halloc]
    exact h.records r

/-- Two nodes of the list have different irqs. -/
theorem RepAt.node_eq (h : RepAt m s nodes) (hlive : Live s) (ha : a ∈ s.slots) {x y : ν} (hx : x ∈ nodes (.slot a))
    (hy : y ∈ nodes (.slot a)) (e : m.nodes.data y = m.nodes.data x) : y = x := by
  have hnodup : ((nodes (.slot a)).map m.nodes.data).Nodup := by
    rw [h.data, slot_lists ha]
    exact (hlive.slot_nodup ha).map fun i j e => Record.irq.inj e
  exact List.inj_on_of_nodup_map hnodup hy hx e

/-- The irq of a node. -/
theorem RepAt.mem_slot (h : RepAt m s nodes) (ha : a ∈ s.slots) {x : ν} (hx : x ∈ nodes (.slot a)) :
    ∃ i ∈ s.slot a, m.nodes.data x = .irq i := by
  have hdata : m.nodes.data x ∈ (s.slot a).map Record.irq := by
    rw [← slot_lists ha, ← h.data]
    exact List.mem_map_of_mem hx
  obtain ⟨i, hi, e⟩ := List.mem_map.1 hdata
  exact ⟨i, hi, e.symm⟩

/-! ### Moving an irq -/

theorem compareInts_irq (h : m.vars = s.unlisted) (irq : ℤ) (j : IrqId) :
    decide (m.compareInts irq (.irq j) = 0) = sameIrq s irq j := by
  rw [Mem.compareInts, h, sameIrq]
  exact decide_eq_decide.2 Int.sub_eq_zero

variable [DecidableEq ν] (malloc : Malloc ν Record)

/-- What `migrate_irq` does to the nodes: it takes one from `src`, where the number of the irq stands first, and adds
one to `dst`. -/
structure Migrated (src dst : Option ObjId) (find : Record → Bool) (m m' : Mem ν) (nodes nodes' : ListVar → List ν) :
    Prop where
  other : ∀ k, k ≠ .slot src → k ≠ .slot dst → nodes' k = nodes k
  taken : src ≠ dst → nodes' (.slot src) = (nodes (.slot src)).eraseP fun y => find (m.nodes.data y)
  data : src ≠ dst → ∀ y ∈ nodes' (.slot src), m'.nodes.data y = m.nodes.data y

/-- **`migrate_irq` in memory.** -/
theorem migrateIrq_rep (h : RepAt m s nodes) {src : Option ObjId} (hsrc : src ∈ s.slots) (hdst : dst ∈ s.slots)
    (i : IrqId) : ∃ m' nodes', m.migrateIrq malloc src dst i = some m' ∧ RepAt m' (migrateIrq src dst i s) nodes' ∧
      Migrated src dst (fun r => m.compareInts (s.irqs i).irq r = 0) m m' nodes nodes' := by
  have hirq : (m.vars.irqs i).irq = (s.irqs i).irq := by rw [h.vars]; rfl
  set irq := (s.irqs i).irq with hirq'
  obtain ⟨entry, hfind, hentry, hdelete⟩ := gListDeleteLink_find h.toLists (.slot src) (m.compareInts irq)
  rw [slot_lists hsrc, List.find?_map] at hentry
  have hcompare : (fun r => decide (m.compareInts irq r = 0)) ∘ Record.irq = sameIrq s irq :=
    funext fun j => compareInts_irq h.vars irq j
  rw [hcompare] at hentry
  unfold Mem.migrateIrq IrqBalance.migrateIrq
  dsimp only
  rw [hirq, ← hirq', hfind]
  simp only [Option.bind_eq_bind, Option.bind_some]
  cases htmp : (s.slot src).find? (sameIrq s irq) with
  | none =>
    rw [htmp, Option.map_none, Option.map_eq_none_iff] at hentry
    subst hentry
    have hnone : ∀ y ∈ nodes (.slot src), ¬decide (m.compareInts irq (m.nodes.data y) = 0) = true := fun y hy => by
      have hdata : m.nodes.data y ∈ (s.slot src).map Record.irq := by
        rw [← slot_lists hsrc, ← h.data]
        exact List.mem_map_of_mem hy
      obtain ⟨j, hj, hjy⟩ := List.mem_map.1 hdata
      rw [← hjy, compareInts_irq h.vars]
      exact List.find?_eq_none.1 htmp j hj
    exact ⟨m, nodes, rfl, h, fun _ _ _ => rfl, fun _ => (List.eraseP_of_forall_not hnone).symm, fun _ _ _ => rfl⟩
  | some tmp =>
    rw [htmp, Option.map_some] at hentry
    obtain ⟨x, rfl, hx⟩ := Option.map_eq_some_iff.1 hentry
    obtain ⟨hmem, n₁, q₁, hrun₁, hchanges₁, hdata₁⟩ := hdelete x rfl
    have herase : ((nodes (.slot src)).erase x).map n₁.data = ((s.slot src).eraseP (sameIrq s irq)).map .irq := by
      rw [hdata₁, slot_lists hsrc, List.eraseP_map, hcompare]
    have h₁ := h.update hsrc hchanges₁ herase
    have hdst₁ : dst ∈ (s.setSlot ((s.slot src).eraseP (sameIrq s irq)) src).slots := by
      rw [setSlot_slots]
      exact hdst
    obtain ⟨n₂, q₂, hrun₂, hchanges₂, hnew⟩ := gListAppend_spec malloc (h₁.stored (.slot dst)) (.irq tmp)
    have happend := h₁.update hdst₁ hchanges₂ (l := (s.setSlot ((s.slot src).eraseP (sameIrq s irq)) src).slot dst ++ [tmp])
      (by rw [List.map_append, hchanges₂.map_data (h₁.stored (.slot dst)).allocated, h₁.data, slot_lists hdst₁,
        List.map_singleton, hnew, List.map_append, List.map_singleton])
    have hdatum : m.nodes.datum x = some (.irq tmp) := (Nodes.datum_eq (h.allocated hmem)).trans (congrArg some hx)
    refine ⟨_, _, ?_, happend.modIrq i _, fun k hsrc' hdst' => ?_, fun hne => ?_, fun hne y hy => ?_⟩
    · simp only [hdatum, hrun₁, hrun₂, Option.bind_some]
    · rw [Function.update_of_ne hdst', Function.update_of_ne hsrc']
    · rw [Function.update_of_ne (slot_injective.ne hne), Function.update_self]
      have hlist := (gListFindCustom_eq (h.stored (.slot src)) (m.compareInts irq)).symm.trans hfind
      exact (eraseP_eq_erase_of_find? (Option.some.inj hlist)).symm
    · rw [Function.update_of_ne (slot_injective.ne hne)] at hy
      have hy' : y ∈ (nodes (.slot src)).erase x := by rwa [Function.update_self] at hy
      exact (hchanges₂.data y (h₁.allocated hy)).trans (hchanges₁.data y (h.allocated (List.mem_of_mem_erase hy')))

/-- **`sort_irq_list` in memory.** -/
theorem sortIrqList_rep (h : Rep objs m s) (ha : a ∈ s.slots) :
    ∃ m', m.sortIrqList a = some m' ∧ Rep objs m' (sortIrqList a s) := by
  obtain ⟨nodes, hrep, hobjs⟩ := h
  set compare : Record → Record → ℤ := fun x y =>
    match x, y with
    | .irq i, .irq j => sortIrqs m.vars i j
    | _, _ => 0 with hcompare
  have hsame : (fun i j => decide (compare (.irq i) (.irq j) ≤ 0)) = fun i j => decide (sortIrqs s i j ≤ 0) := by
    funext i j
    rw [hcompare, hrep.vars]
    rfl
  obtain ⟨n, q, hrun, hchanges⟩ := gListSortNodes_spec compare (hrep.stored (.slot a))
  have hdata : (MergeSort.sort (fun x y => compare (m.nodes.data x) (m.nodes.data y) ≤ 0) (nodes (.slot a))).map n.data =
      (MergeSort.sort (fun i j => sortIrqs s i j ≤ 0) (s.slot a)).map .irq := by
    rw [hchanges.map_data fun y hy => hrep.allocated ((MergeSort.sort_perm _ _).mem_iff.1 hy),
      MergeSort.sort_map m.nodes.data (fun x y => decide (compare x y ≤ 0)), hrep.data, slot_lists ha, ← hsame,
      MergeSort.sort_map Record.irq (fun x y => decide (compare x y ≤ 0))]
  refine ⟨_, congrArg (Option.map (m.setList (.slot a))) hrun, _, hrep.update ha hchanges hdata, fun k hk => ?_⟩
  rw [Function.update_of_ne, hobjs k hk]
  rintro rfl
  rw [slot_ofObjs] at hk
  cases hk

/-! ### The loops -/

/-- What a call on the irq in the node `x` may do to the nodes, while the list of the slot `a` is walked. -/
structure Unlinks (a : Option ObjId) (x : ν) (m m' : Mem ν) (nodes nodes' : ListVar → List ν) : Prop where
  objs : ∀ k, k.ofObjs = true → nodes' k = nodes k
  list : nodes' (.slot a) = nodes (.slot a) ∨ nodes' (.slot a) = (nodes (.slot a)).erase x
  data : ∀ y ∈ nodes' (.slot a), m'.nodes.data y = m.nodes.data y

theorem Unlinks.refl (a : Option ObjId) (x : ν) (m : Mem ν) (nodes : ListVar → List ν) : Unlinks a x m m nodes nodes :=
  ⟨fun _ _ => rfl, Or.inl rfl, fun _ _ => rfl⟩

/-- `migrate_irq`, called on the irq that is visited, takes away the node that is visited. -/
theorem Migrated.unlinks (h : RepAt m s nodes) (hlive : Live s) (ha : a ∈ s.slots) {x : ν} (hx : x ∈ nodes (.slot a))
    (hi : m.nodes.data x = .irq i) (hne : a ≠ dst)
    (hm : Migrated a dst (fun r => m.compareInts (s.irqs i).irq r = 0) m m' nodes nodes') :
    Unlinks a x m m' nodes nodes' := by
  have hslot : ∀ (b : Option ObjId) (k : ListVar), k.ofObjs = true → k ≠ .slot b := fun b k hk e => by
    rw [e, slot_ofObjs] at hk
    cases hk
  refine ⟨fun k hk => hm.other k (hslot a k hk) (hslot dst k hk), Or.inr ?_, hm.data hne⟩
  have hself : ∀ y ∈ nodes (.slot a),
      decide (m.compareInts (s.irqs i).irq (m.nodes.data y) = 0) = true ↔ y = x := fun y hy => by
    obtain ⟨j, hj, hjy⟩ := h.mem_slot ha hy
    obtain ⟨i', hi', hix⟩ := h.mem_slot ha hx
    obtain rfl : i = i' := Record.irq.inj (hi.symm.trans hix)
    rw [hjy, compareInts_irq h.vars, sameIrq_iff]
    constructor
    · intro e
      have hji := hlive.db.eq_of_number ((hlive.mem_slot ha).1 hj).1.1 ((hlive.mem_slot ha).1 hi').1.1 e
      exact h.node_eq hlive ha hx hy (by rw [hjy, hi, hji])
    · rintro rfl
      rw [Record.irq.inj (hjy.symm.trans hi)]
      rfl
  rw [hm.taken hne]
  set f : ν → Bool := fun y => m.compareInts (s.irqs i).irq (m.nodes.data y) = 0
  cases hfind : (nodes (.slot a)).find? f with
  | none => exact absurd ((hself x hx).2 rfl) (List.find?_eq_none.1 hfind x hx)
  | some y =>
    have hyx := (hself y (List.mem_of_find?_eq_some hfind)).1 (List.find?_some (p := f) hfind)
    rw [eraseP_eq_erase_of_find? hfind, hyx]

/-- The object a record is. -/
def Record.objId : Record → ObjId
  | .obj o => o
  | .irq _ => 0

/-- The irq a record is. -/
def Record.irqId : Record → IrqId
  | .irq i => i
  | .obj _ => 0

section Loops

variable {σ τ : Type}

omit [DecidableEq ν] in
theorem Rep.stored (h : Rep objs m s) (hk : k.ofObjs = true) :
    Stored m.nodes (m.head k) (objs k) ∧ (objs k).map m.nodes.data = s.lists k := by
  obtain ⟨nodes, hrep, hobjs⟩ := h
  rw [← hobjs k hk]
  exact ⟨hrep.stored k, hrep.data k⟩

/-- **`for_each_object` in memory**, for a callback that leaves the lists of objects. -/
theorem forEachObject_rel (mem : τ → Mem ν) (st : σ → State) (cb : ObjId → τ → Option τ) (cb' : σ → ObjId → Option σ)
    {R : τ → σ → Prop} {os : List ObjId} (hk : k.ofObjs = true)
    (hR : ∀ t s, R t s → Rep objs (mem t) (st s) ∧ (st s).lists k = os.map .obj)
    (hcb : ∀ o ∈ os, ∀ t s, R t s → Option.Rel R (cb o t) (cb' s o)) {t : τ} {s : σ} (hts : R t s) :
    Option.Rel R (Mem.forEachObject mem k cb t) (os.foldlM cb' s) := by
  obtain ⟨hrep, hlists⟩ := hR t s hts
  obtain ⟨hstored, -⟩ := hrep.stored hk
  unfold Mem.forEachObject
  rw [gListFirst_eq hstored, Option.bind_some, hstored.seg.head_eq]
  have hview : ∀ t s, R t s → (objs k).map (mem t).nodes.data = os.map .obj := fun t s hts => by
    obtain ⟨hrep, hlists⟩ := hR t s hts
    rw [(hrep.stored hk).2, hlists]
  refine LinkedList.each_foldlM_rel (fun t x => ((mem t).nodes.data x).objId) (R := R) (fun t s hts => ?_)
    (fun x hx t s hts => ?_) hts hstored.length_le
  · have hstored := ((hR t s hts).1.stored hk).1
    rw [hstored.seg.head_eq] at hstored
    refine ⟨hstored, ?_⟩
    have hmap := congrArg (List.map Record.objId) (hview t s hts)
    rw [List.map_map, List.map_map] at hmap
    exact hmap.trans (List.map_id _)
  · have hdata : (mem t).nodes.data x ∈ os.map Record.obj := by
      rw [← hview t s hts]
      exact List.mem_map_of_mem hx
    obtain ⟨o, ho, e⟩ := List.mem_map.1 hdata
    rw [← e]
    exact hcb o ho t s hts

/-- **`for_each_irq` in memory**, for a callback that leaves the irq it is called on or moves it away. The list is not
empty, and the irqs are rearranged. -/
theorem forEachIrq_rel (mem : τ → Mem ν) (st : σ → State) (list : State → List IrqId) (cb : IrqId → τ → Option τ)
    (cb' : IrqId → σ → Option σ) {D : Set (Option ObjId)} {Q : τ → σ → Prop} (hshifts : ShiftsIn D st a cb')
    (hcb : ∀ i x t s nodes, RepAt (mem t) (st s) nodes → Live (st s) → a ∈ (st s).slots → Q t s →
      x ∈ nodes (.slot a) → (mem t).nodes.data x = .irq i → Option.Rel (fun t' s' => Q t' s' ∧
        ∃ nodes', RepAt (mem t') (st s') nodes' ∧ Unlinks a x (mem t) (mem t') nodes nodes') (cb i t) (cb' i s))
    {t : τ} {s : σ} (h : Rep objs (mem t) (st s)) (hq : Q t s) (hlive : Live (st s)) (ha : a ∈ (st s).slots)
    (hlist : ∀ s, list s = s.slot a) (hne : list (st s) ≠ []) :
    Option.Rel (fun t' s' => Rep objs (mem t') (st s') ∧ Q t' s' ∧ Rearrange D (st s) (st s'))
      (Mem.forEachIrq mem (.slot a) cb t) (forEachIrqOn st list cb' s) := by
  obtain ⟨nodes, hrep, hobjs⟩ := h
  have hstored := hrep.stored (.slot a)
  have hhead : (mem t).head (.slot a) ≠ none := fun e => by
    have hseg := hstored.seg
    rw [hseg.head_eq, List.head?_eq_none_iff] at e
    have hdata := hrep.data (.slot a)
    rw [e, slot_lists ha, ← hlist, List.map_nil] at hdata
    exact hne (List.map_eq_nil_iff.1 hdata.symm)
  have hget : (fun p => list (st p)) = fun p => (st p).slot a := funext fun p => hlist (st p)
  rw [forEachIrqOn_eq hne, hget]
  unfold Mem.forEachIrq
  dsimp only
  rw [if_neg hhead, gListFirst_eq hstored, Option.bind_some, hstored.seg.head_eq]
  refine Loops.rel_mono (LinkedList.each_rel (fun t x => ((mem t).nodes.data x).irqId)
    (R := fun t' s' l => ∃ nodes', RepAt (mem t') (st s') nodes' ∧ (∀ k, k.ofObjs = true → nodes' k = objs k) ∧
      nodes' (.slot a) = l ∧ Live (st s') ∧ a ∈ (st s').slots ∧ Q t' s' ∧ Rearrange D (st s) (st s')) ?_ ?_
    ⟨nodes, hrep, hobjs, rfl, hlive, ha, hq, .refl _⟩ hstored.length_le)
    fun t' s' ⟨_, nodes', hrep', hobjs', _, _, _, hq', hr'⟩ => ⟨⟨nodes', hrep', hobjs'⟩, hq', hr'⟩
  · rintro t' s' l ⟨nodes', hrep', -, rfl, hlive', ha', -, -⟩
    have hstored' := hrep'.stored (.slot a)
    rw [hstored'.seg.head_eq] at hstored'
    refine ⟨hstored', ?_, hlive'.slot_nodup ha'⟩
    have hmap := congrArg (List.map Record.irqId) (hrep'.data (.slot a))
    rw [slot_lists ha', List.map_map, List.map_map] at hmap
    exact hmap.trans (List.map_id _)
  · rintro x t' s' l ⟨nodes', hrep', hobjs', rfl, hlive', ha', hq', hr'⟩ hx
    obtain ⟨i, hi, hdata⟩ := hrep'.mem_slot ha' hx
    obtain ⟨hi', hhome⟩ := (hlive'.mem_slot ha').1 hi
    have hcall := hcb i x t' s' nodes' hrep' hlive' ha' hq' hx hdata
    rw [hdata]
    refine Loops.rel_mono (Loops.rel_and (P := fun _ => True) (Q := fun s'' => Rearrange D (st s') (st s'')) hcall
      (fun _ _ => trivial) fun s'' hs'' => (hshifts i s' s'' hlive' ha' hi hs'').rearrange hi') ?_
    rintro t'' s'' ⟨⟨hq'', nodes'', hrep'', hunlinks⟩, -, hr''⟩
    refine ⟨nodes'' (.slot a), ⟨nodes'', hrep'', fun k hk => (hunlinks.objs k hk).trans (hobjs' k hk), rfl,
      hr''.live hlive', hr''.mem_slots ha', hq'', hr'.trans hr''⟩, hunlinks.list, fun y hy => ?_⟩
    rw [hunlinks.data y hy]

end Loops

end IrqBalance
