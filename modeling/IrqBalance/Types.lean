import Mathlib.Data.List.Basic
import IrqBalance.Lib.CString

/-!
# `types.h`, `cpumask.h` and the globals

The records of the daemon (`TopoObj`, `IrqInfo`), its command-line settings (`Options`) and all its
global variables (`State`).

A pointer to a `struct topo_obj` or to a `struct irq_info` is a number, given out in the order of
allocation, and the two kinds of records live in heaps, `objs` and `irqs`. A `GList` of records is a
list of such numbers. The lists that irqs move between are `rebalance_irq_list` and the `interrupts`
of the topology objects; `&rebalance_irq_list` and `&obj->interrupts` are the two kinds of *slots*,
`none` and `some obj`.

The only effect on the outside is a write to `/proc/irq/N/smp_affinity`: `smpAffinity` is the mask
that the kernel holds for each irq number.
-/

namespace IrqBalance

open CString (Text)

/-- `NR_CPUS`. -/
abbrev nrCpus : ℕ := 4096

/-- `cpumask_t`. -/
abbrev Cpumask := BitVec nrCpus

/-- `CPU_MASK_ALL`. -/
def cpuMaskAll : Cpumask := BitVec.allOnes nrCpus

/-- `cpus_intersects`. -/
def cpusIntersects (a b : Cpumask) : Bool := a &&& b != 0

/-- `cpus_empty`. -/
def cpusEmpty (a : Cpumask) : Bool := a == 0

/-- `cpu_set` on a cleared mask. -/
def cpumaskOfCpu (cpu : ℕ) : Cpumask := BitVec.ofNat nrCpus (2 ^ cpu)

/-- `ULLONG_MAX` and `ULONG_MAX`. -/
def ullongMax : UInt64 := 0xFFFFFFFFFFFFFFFF

/-- `enum obj_type_e`. -/
inductive ObjType
  | cpu
  | cache
  | package
  | node
deriving DecidableEq, Repr

/-- `BALANCE_NONE` .. `BALANCE_CORE`. -/
inductive BalanceLevel
  | none
  | package
  | cache
  | core
deriving DecidableEq, Repr

/-- The irq classes, without `IRQ_NODEF`. -/
inductive IrqClass
  | other
  | legacy
  | scsi
  | video
  | eth
  | gbeth
  | tenGbeth
  | virtEvent
deriving DecidableEq, Repr

/-- The number of an irq class. -/
def IrqClass.toNat : IrqClass → ℕ
  | .other => 0
  | .legacy => 1
  | .scsi => 2
  | .video => 3
  | .eth => 4
  | .gbeth => 5
  | .tenGbeth => 6
  | .virtEvent => 7

/-- `IRQ_TYPE_LEGACY` .. `IRQ_TYPE_VIRT_EVENT`. -/
inductive IrqType
  | legacy
  | msi
  | msix
  | virtEvent
deriving DecidableEq, Repr

/-- `enum hp_e`. -/
inductive HintPolicy
  | ignore
  | subset
  | exact
deriving DecidableEq, Repr

/-- A pointer to a `struct topo_obj`. -/
abbrev ObjId := ℕ

/-- A pointer to a `struct irq_info`. -/
abbrev IrqId := ℕ

/-- `struct topo_obj`; the default values are those of `calloc`. -/
structure TopoObj where
  load : UInt64 := 0
  lastLoad : UInt64 := 0
  irqCount : UInt64 := 0
  objType : ObjType := .cpu
  number : ℤ := 0
  powersaveMode : Bool := false
  mask : Cpumask := 0
  interrupts : List IrqId := []
  parent : Option ObjId := none
  children : List ObjId := []

/-- `struct irq_info`; the default values are those of `calloc`. -/
structure IrqInfo where
  irq : ℤ := 0
  irqClass : IrqClass := .other
  type : IrqType := .legacy
  level : BalanceLevel := .none
  numaNode : Option ObjId := none
  affinityHint : Cpumask := 0
  hintPolicy : HintPolicy := .ignore
  irqCount : UInt64 := 0
  lastIrqCount : UInt64 := 0
  load : UInt64 := 0
  moved : Bool := false
  assignedObj : Option ObjId := none
  warned : Bool := false
  name : Option Text := none

/-- The irq has published a hint, and its policy is the given one. -/
def IrqInfo.hasHint (info : IrqInfo) (policy : HintPolicy) : Bool :=
  info.hintPolicy = policy && !cpusEmpty info.affinityHint

/-- What the command line and the C library fix before the main loop starts. -/
structure Options where
  /-- the irq numbers in `cl_banned_irqs` -/
  clBannedIrqs : List ℤ := []
  clBannedModules : List Text := []
  bannedIrqNames : List Text := []
  globalHintPolicy : HintPolicy := .ignore
  powerThresh : UInt64 := ullongMax
  deepestCache : ℕ := 2
  /-- whether a policy script was given -/
  polscript : Bool := false
  numaAvail : Bool := false
  hz : ℕ := 100
  /-- whether a failing `getline` leaves the line buffer unchanged -/
  getlineKeeps : Bool := false
  /-- the address of the `struct irq_info` with a given number -/
  irqAddr : IrqId → ℕ := id

/-- The global variables. -/
structure State where
  objs : ObjId → TopoObj
  nextObj : ObjId
  irqs : IrqId → IrqInfo
  nextIrq : IrqId
  opts : Options
  numaNodes : List ObjId
  packages : List ObjId
  cacheDomains : List ObjId
  cpus : List ObjId
  packageCount : ℕ
  cacheDomainCount : ℕ
  coreCount : ℕ
  bannedCpus : Cpumask
  unbannedCpus : Cpumask
  interruptsDb : List IrqId
  bannedIrqs : List IrqId
  rebalanceIrqList : List IrqId
  needRescan : Bool
  cycleCount : UInt64
  smpAffinity : ℤ → Cpumask

/-- `&unspecified_node`, the one statically allocated object. -/
def unspecifiedNode : ObjId := 0

/-- The state in which `main` starts. -/
def State.initial (opts : Options) (smpAffinity : ℤ → Cpumask) : State where
  objs := fun _ => {}
  nextObj := 1
  irqs := fun _ => {}
  nextIrq := 0
  opts := opts
  numaNodes := []
  packages := []
  cacheDomains := []
  cpus := []
  packageCount := 0
  cacheDomainCount := 0
  coreCount := 0
  bannedCpus := 0
  unbannedCpus := 0
  interruptsDb := []
  bannedIrqs := []
  rebalanceIrqList := []
  needRescan := false
  cycleCount := 0
  smpAffinity := smpAffinity

namespace State

/-- All objects of the topology. -/
def topology (s : State) : List ObjId := s.numaNodes ++ s.packages ++ s.cacheDomains ++ s.cpus

/-- Write to the object `o`. -/
def modObj (s : State) (o : ObjId) (f : TopoObj → TopoObj) : State :=
  { s with objs := fun p => if p = o then f (s.objs p) else s.objs p }

/-- Write to the irq `i`. -/
def modIrq (s : State) (i : IrqId) (f : IrqInfo → IrqInfo) : State :=
  { s with irqs := fun j => if j = i then f (s.irqs j) else s.irqs j }

/-- The list a slot points to: `rebalance_irq_list`, or the `interrupts` of an object. -/
def slot (s : State) : Option ObjId → List IrqId
  | none => s.rebalanceIrqList
  | some o => (s.objs o).interrupts

/-- Write the list a slot points to. -/
def setSlot (s : State) (l : List IrqId) : Option ObjId → State
  | none => { s with rebalanceIrqList := l }
  | some o => s.modObj o fun ob => { ob with interrupts := l }

section Api

variable (s : State) (o p : ObjId) (i j : IrqId) (f : TopoObj → TopoObj) (g : IrqInfo → IrqInfo)
variable (l : List IrqId) (a b : Option ObjId)

theorem modObj_objs : (s.modObj o f).objs p = if p = o then f (s.objs p) else s.objs p := rfl
@[simp] theorem modObj_objs_self : (s.modObj o f).objs o = f (s.objs o) := by simp [modObj]
@[simp] theorem modObj_irqs : (s.modObj o f).irqs = s.irqs := rfl
@[simp] theorem modObj_rebalance : (s.modObj o f).rebalanceIrqList = s.rebalanceIrqList := rfl
theorem modIrq_irqs : (s.modIrq i g).irqs j = if j = i then g (s.irqs j) else s.irqs j := rfl
@[simp] theorem modIrq_irqs_self : (s.modIrq i g).irqs i = g (s.irqs i) := by simp [modIrq]
@[simp] theorem modIrq_objs : (s.modIrq i g).objs = s.objs := rfl
@[simp] theorem modIrq_slot : (s.modIrq i g).slot a = s.slot a := by cases a <;> rfl
@[simp] theorem setSlot_irqs : (s.setSlot l a).irqs = s.irqs := by cases a <;> rfl
@[simp] theorem setSlot_slot_self : (s.setSlot l a).slot a = l := by
  cases a <;> simp [setSlot, slot]

variable {s o p i j f g l a b}

theorem modObj_objs_of_ne (h : p ≠ o) : (s.modObj o f).objs p = s.objs p := by simp [modObj, h]
theorem modIrq_irqs_of_ne (h : j ≠ i) : (s.modIrq i g).irqs j = s.irqs j := by simp [modIrq, h]

theorem setSlot_slot_of_ne (h : b ≠ a) : (s.setSlot l a).slot b = s.slot b := by
  cases a with
  | none => cases b with
    | none => exact absurd rfl h
    | some p => rfl
  | some o => cases b with
    | none => rfl
    | some p =>
      have hp : p ≠ o := fun e => h (by rw [e])
      simp [setSlot, slot, modObj_objs_of_ne hp]

end Api

end State

end IrqBalance
