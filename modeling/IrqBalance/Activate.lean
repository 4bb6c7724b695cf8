import IrqBalance.Placement

/-!
# `activate.c`: writing the masks to the kernel

`activate_mappings` goes through the irq database and writes the mask of each irq that has moved,
unless the kernel holds that mask already or the mask is not valid.
-/

namespace IrqBalance

/-- Which `smp_affinity` files can be opened for reading and for writing. -/
structure ProcIrq where
  readable : ℤ → Bool := fun _ => true
  writable : ℤ → Bool := fun _ => true

/-- `check_affinity`: the mask needs no write, or the file cannot be read. -/
def checkAffinity (env : ProcIrq) (s : State) (info : IrqInfo) (appliedMask : Cpumask) : Bool :=
  !env.readable info.irq || appliedMask = s.smpAffinity info.irq

/-- `applied_mask` of `activate_mapping`, when `valid_mask` is set. -/
def appliedMask (s : State) (info : IrqInfo) : Option Cpumask :=
  if info.hasHint .exact then
    if cpusIntersects info.affinityHint s.bannedCpus then none else some info.affinityHint
  else match info.assignedObj with
    | none => none
    | some obj =>
      let mask := (s.objs obj).mask
      if info.hasHint .subset then
        if cpusIntersects (mask &&& info.affinityHint) s.unbannedCpus then
          some (mask &&& info.affinityHint)
        else none
      else some mask

/-- The assignment to `warned`: the SUBSET hint leaves no unbanned cpu. -/
def warns (s : State) (info : IrqInfo) : Bool :=
  !info.hasHint .exact && info.assignedObj.isSome && info.hasHint .subset &&
    (appliedMask s info).isNone

/-- The mask that `activate_mapping` writes to `smp_affinity`, if it writes. -/
def writtenMask (env : ProcIrq) (s : State) (i : IrqId) : Option Cpumask :=
  let info := s.irqs i
  if !info.moved then none
  else match appliedMask s info with
    | none => none
    | some mask =>
      if checkAffinity env s info mask then none
      else if info.assignedObj = none then none
      else if !env.writable info.irq then none
      else some mask

/-- `activate_mapping`. -/
def activateMapping (env : ProcIrq) (i : IrqId) (s : State) : Option State :=
  let written := writtenMask env s i
  let warned := (s.irqs i).moved && warns s (s.irqs i)
  let s := s.modIrq i fun info => { info with warned := info.warned || warned }
  match written with
  | none => some s
  | some mask =>
    let irq := (s.irqs i).irq
    some ({ s with smpAffinity := fun n => if n = irq then mask else s.smpAffinity n }.modIrq i
      fun info => { info with moved := false })

/-- `activate_mappings`. -/
def activateMappings (env : ProcIrq) (s : State) : Option State :=
  forEachIrq State.interruptsDb (activateMapping env) s

end IrqBalance
