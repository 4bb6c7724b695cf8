import IrqBalance.Database
import IrqBalance.Lib.Bins
import IrqBalance.Topology

/-!
# Where the irqs are

Between two rebuilds the irqs that take part in balancing are filed in bins: `rebalance_irq_list` and
the `interrupts` lists of the objects, with `assigned_obj` as the home of each irq (`Live.bins`).

All functions that move an irq do the same thing (`Moved`): they take it out of its bin, append it to
another one, store the new bin in `assigned_obj` and set `moved`. `migrate_irq` looks for the number of
the irq; since no two irqs of the database have one number, it finds the irq itself.
-/

namespace IrqBalance

open Bins (IsBins)

/-- The bins: `rebalance_irq_list`, and one for each object of the topology. -/
def State.slots (s : State) : Set (Option ObjId) := {a | ∀ o, a = some o → o ∈ s.topology}

/-- The irqs that are balanced. -/
def State.live (s : State) : Set IrqId := {i | i ∈ s.interruptsDb ∧ (s.irqs i).level ≠ .none}

/-- The bin of an irq, as `assigned_obj` has it. -/
def State.home (s : State) (i : IrqId) : Option ObjId := (s.irqs i).assignedObj

/-- The database is well formed. -/
structure DbWf (s : State) : Prop where
  number_nodup : (s.known.map s.number).Nodup
  numaNode : ∀ i ∈ s.interruptsDb, (s.irqs i).numaNode = some unspecifiedNode

/-- The invariant of the main loop: every balanced irq is in the bin that its `assigned_obj` names. -/
structure Live (s : State) : Prop where
  topo : TopoWf s
  db : DbWf s
  bins : IsBins s.slots s.live s.slot s.home
  unplaced : ∀ i ∈ s.interruptsDb, (s.irqs i).level = .none → s.home i = none

variable {s s' : State} {i j : IrqId} {a dst : Option ObjId} {o : ObjId}

theorem none_mem_slots (s : State) : none ∈ s.slots := by
  intro o h
  cases h

theorem some_mem_slots : some o ∈ s.slots ↔ o ∈ s.topology := by simp [State.slots]

/-! ### What the invariant depends on -/

section OfStatic

variable (e : s'.static = s.static)
include e

theorem topology_of_static : s'.topology = s.topology :=
  show s'.static.topology = s.static.topology by rw [e]

theorem cpus_of_static : s'.cpus = s.cpus :=
  show s'.static.cpus = s.static.cpus by rw [e]

theorem cacheDomains_of_static : s'.cacheDomains = s.cacheDomains :=
  show s'.static.cacheDomains = s.static.cacheDomains by rw [e]

theorem packages_of_static : s'.packages = s.packages :=
  show s'.static.packages = s.static.packages by rw [e]

theorem slots_of_static : s'.slots = s.slots := by
  rw [State.slots, State.slots, topology_of_static e]

theorem interruptsDb_of_static : s'.interruptsDb = s.interruptsDb :=
  show s'.static.interruptsDb = s.static.interruptsDb by rw [e]

theorem known_of_static : s'.known = s.known :=
  show s'.static.known = s.static.known by rw [e]

theorem number_of_static : s'.number = s.number :=
  show s'.static.number = s.static.number by rw [e]

theorem getIrqInfo_of_static : getIrqInfo s' = getIrqInfo s :=
  show getIrqInfo s'.static = getIrqInfo s.static by rw [e]

theorem level_of_static (i : IrqId) : (s'.irqs i).level = (s.irqs i).level :=
  show (s'.static.irqs i).level = (s.static.irqs i).level by rw [e]

theorem live_of_static : s'.live = s.live :=
  show s'.static.live = s.static.live by rw [e]

theorem DbWf.of_static (h : DbWf s) : DbWf s' where
  number_nodup := by rw [known_of_static e, number_of_static e]; exact h.number_nodup
  numaNode i hi := by
    have hnuma : (s'.static.irqs i).numaNode = (s.static.irqs i).numaNode := by rw [e]
    rw [interruptsDb_of_static e] at hi
    exact hnuma.trans (h.numaNode i hi)

/-- The invariant depends on the static part of the state, the bins and the `assigned_obj`s. -/
theorem Live.congr (h : Live s) (hslot : s'.slot = s.slot) (hhome : s'.home = s.home) : Live s' where
  topo := h.topo.of_static e
  db := h.db.of_static e
  bins := by rw [slots_of_static e, live_of_static e, hslot, hhome]; exact h.bins
  unplaced i hi hl := by
    rw [interruptsDb_of_static e] at hi
    rw [level_of_static e] at hl
    rw [hhome]
    exact h.unplaced i hi hl

end OfStatic

theorem noStats_slot (s : State) : s.noStats.slot = s.slot := by
  funext a
  cases a <;> rfl

theorem slot_of_noStats (e : s'.noStats = s.noStats) : s'.slot = s.slot := by
  rw [← noStats_slot s', e, noStats_slot]

theorem home_of_noStats (e : s'.noStats = s.noStats) : s'.home = s.home :=
  show s'.noStats.home = s.noStats.home by rw [e]

/-- Loads and counters do not matter. -/
theorem Live.of_noStats (h : Live s) (e : s'.noStats = s.noStats) : Live s' :=
  h.congr (static_of_noStats e) (slot_of_noStats e) (home_of_noStats e)

/-! ### Moving an irq -/

/-- The part of the state that moving an irq leaves alone. -/
def State.unmoved (s : State) : State :=
  { s with
    objs := fun o => { s.objs o with interrupts := [], load := 0 }
    irqs := fun _ => {}
    rebalanceIrqList := [] }

/-- The irq `i` is moved to the bin `dst`. The load of an object may change on the way. -/
structure Moved (i : IrqId) (dst : Option ObjId) (s s' : State) : Prop where
  slot_eq : s'.slot = Bins.move s.slot (s.home i) dst i
  irqs_eq : s'.irqs =
    Function.update s.irqs i { s.irqs i with moved := true, assignedObj := dst }
  unmoved_eq : s'.unmoved = s.unmoved

theorem Moved.home_eq (h : Moved i dst s s') : s'.home = Function.update s.home i dst := by
  funext j
  rw [State.home, h.irqs_eq]
  by_cases hj : j = i
  · subst hj; simp
  · simp [hj, State.home]

theorem Moved.irqs_of_ne (h : Moved i dst s s') (hj : j ≠ i) : s'.irqs j = s.irqs j := by
  rw [h.irqs_eq, Function.update_of_ne hj]

theorem Moved.irqs_self (h : Moved i dst s s') :
    s'.irqs i = { s.irqs i with moved := true, assignedObj := dst } := by
  rw [h.irqs_eq, Function.update_self]

theorem static_ext (hobjs : ∀ o, (s'.objs o).static = (s.objs o).static)
    (hirqs : ∀ i, (s'.irqs i).static = (s.irqs i).static)
    (h : s'.unmoved.static = s.unmoved.static) : s'.static = s.static := by
  have hstatic : ∀ t : State, t.static = { t.unmoved.static with
      objs := fun o => (t.objs o).static, irqs := fun i => (t.irqs i).static } := fun t => rfl
  rw [hstatic s', hstatic s, h]
  simp only [hobjs, hirqs]

theorem Moved.static_eq (h : Moved i dst s s') : s'.static = s.static := by
  refine static_ext (fun o => ?_) (fun j => ?_) (by rw [h.unmoved_eq])
  · have hobj : (s'.unmoved.objs o).static = (s.unmoved.objs o).static := by rw [h.unmoved_eq]
    exact hobj
  · by_cases hj : j = i
    · rw [hj, h.irqs_self]; rfl
    · rw [h.irqs_of_ne hj]

/-- **Moving a balanced irq to another bin keeps the invariant.** -/
theorem Moved.live (hm : Moved i dst s s') (h : Live s) (hi : i ∈ s.live) (hdst : dst ∈ s.slots)
    (hne : dst ≠ s.home i) : Live s' where
  topo := h.topo.of_static hm.static_eq
  db := h.db.of_static hm.static_eq
  bins := by
    rw [slots_of_static hm.static_eq, live_of_static hm.static_eq, hm.slot_eq, hm.home_eq]
    exact h.bins.move hi hdst hne
  unplaced j hj hl := by
    rw [interruptsDb_of_static hm.static_eq] at hj
    rw [level_of_static hm.static_eq] at hl
    have hji : j ≠ i := by rintro rfl; exact hi.2 hl
    rw [hm.home_eq, Function.update_of_ne hji]
    exact h.unplaced j hj hl

/-- The irq leaves its bin. -/
theorem Moved.slot_erase (hm : Moved i dst s s') (hne : dst ≠ s.home i) :
    s'.slot (s.home i) = (s.slot (s.home i)).erase i := by
  rw [hm.slot_eq, Bins.move_from hne]

theorem Live.mem_slot (h : Live s) (ha : a ∈ s.slots) : i ∈ s.slot a ↔ i ∈ s.live ∧ s.home i = a :=
  h.bins.mem_iff a ha i

theorem DbWf.interruptsDb_nodup (h : DbWf s) : s.interruptsDb.Nodup :=
  (List.Nodup.of_map _ h.number_nodup).sublist (List.sublist_append_left _ _)

/-- Irqs of the database with one number are one irq. -/
theorem DbWf.eq_of_number (h : DbWf s) (hi : i ∈ s.interruptsDb) (hj : j ∈ s.interruptsDb)
    (e : s.number i = s.number j) : i = j :=
  List.inj_on_of_nodup_map h.number_nodup (List.mem_append_left _ hi) (List.mem_append_left _ hj) e

theorem eraseP_eq_erase {l : List IrqId} {p : IrqId → Bool} (hp : ∀ j ∈ l, p j = true ↔ j = i) :
    l.eraseP p = l.erase i := by
  induction l with
  | nil => rfl
  | cons j l ih =>
    have htail := ih fun k hk => hp k (List.mem_cons_of_mem j hk)
    by_cases hj : j = i
    · rw [List.eraseP_cons_of_pos ((hp j List.mem_cons_self).2 hj), hj, List.erase_cons_head]
    · rw [List.eraseP_cons_of_neg (mt (hp j List.mem_cons_self).1 hj),
        List.erase_cons_tail (by simpa using hj), htail]

theorem find?_eq_self {l : List IrqId} {p : IrqId → Bool} (hi : i ∈ l)
    (hp : ∀ j ∈ l, p j = true ↔ j = i) : l.find? p = some i := by
  cases h : l.find? p with
  | none => exact absurd ((hp i hi).2 rfl) (List.find?_eq_none.1 h i hi)
  | some j => rw [(hp j (List.mem_of_find?_eq_some h)).1 (List.find?_some h)]

theorem setSlot_slot (s : State) (l : List IrqId) (a : Option ObjId) :
    (s.setSlot l a).slot = Function.update s.slot a l := by
  funext b
  by_cases hb : b = a
  · subst hb; simp
  · rw [Function.update_of_ne hb, State.setSlot_slot_of_ne hb]

theorem modObj_unmoved {f : TopoObj → TopoObj}
    (hf : ∀ ob, { f ob with interrupts := [], load := 0 } =
      ({ ob with interrupts := [], load := 0 } : TopoObj)) (s : State) (o : ObjId) :
    (s.modObj o f).unmoved = s.unmoved := by
  have h : ∀ p, ({ (s.modObj o f).objs p with interrupts := [], load := 0 } : TopoObj) =
      { s.objs p with interrupts := [], load := 0 } := by
    intro p
    rw [State.modObj_objs]
    split_ifs
    · exact hf _
    · rfl
  simp only [State.unmoved, h]
  rfl

theorem setSlot_unmoved (s : State) (l : List IrqId) (a : Option ObjId) :
    (s.setSlot l a).unmoved = s.unmoved := by
  cases a with
  | none => rfl
  | some o =>
    unfold State.setSlot
    exact modObj_unmoved (by intro _; rfl) s o

/-- `migrate_irq` on the bin of the irq, followed by the assignment to `assigned_obj`. -/
theorem migrateIrq_moved (h : Live s) (hi : i ∈ s.live) (dst : Option ObjId) :
    Moved i dst s ((migrateIrq (s.home i) dst i s).modIrq i fun info =>
      { info with assignedObj := dst }) := by
  have hsrc := h.bins.home_mem i hi
  have hsame : ∀ j ∈ s.slot (s.home i), sameIrq s (s.irqs i).irq j = true ↔ j = i := by
    intro j hj
    rw [sameIrq_iff]
    exact ⟨fun e => h.db.eq_of_number ((h.mem_slot hsrc).1 hj).1.1 hi.1 e, fun e => by rw [e]; rfl⟩
  have hfind := find?_eq_self (h.bins.mem_home hi) hsame
  unfold migrateIrq
  dsimp only
  rw [hfind, eraseP_eq_erase hsame]
  refine ⟨?_, ?_, ?_⟩
  · funext b
    rw [State.modIrq_slot, State.modIrq_slot, setSlot_slot, setSlot_slot]
    rfl
  · funext j
    by_cases hj : j = i
    · subst hj; simp
    · simp [State.modIrq_irqs_of_ne hj, hj]
  · exact (setSlot_unmoved _ _ _).trans (setSlot_unmoved _ _ _)

/-- `assign_irq` in the two searches for a place: the irq moves, and its load counts there. -/
theorem assignIrq_moved (h : Live s) (hi : i ∈ s.live) (o : ObjId) :
    Moved i (some o) s (assignIrq (s.home i) o i s) := by
  have hm := migrateIrq_moved h hi (some o)
  unfold assignIrq
  dsimp only
  set t := (migrateIrq (s.home i) (some o) i s).modIrq i fun info =>
    { info with assignedObj := some o }
  refine ⟨?_, hm.irqs_eq, (modObj_unmoved (by intro _; rfl) t o).trans hm.unmoved_eq⟩
  rw [← hm.slot_eq]
  funext b
  cases b with
  | none => rfl
  | some p =>
    change ((t.modObj o _).objs p).interrupts = (t.objs p).interrupts
    rw [State.modObj_objs]
    split_ifs <;> rfl

end IrqBalance
