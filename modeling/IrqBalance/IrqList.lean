import IrqBalance.Classify

/-!
# `irqlist.c`: selecting irqs for rebalancing

`update_migration_status` compares the loads of the objects of each kind with their average, takes
irqs off loaded objects and puts them on `rebalance_irq_list`, and switches cpus in and out of
powersave mode.

The standard deviation is a `long double`; it is kept here as a natural in units of `2 ^ (-52)`, which
hold every value of `sqrt` on an integer exactly.
-/

namespace IrqBalance

/-- `struct load_balance_info`. -/
structure LoadBalanceInfo where
  totalLoad : UInt64 := 0
  avgLoad : UInt64 := 0
  minLoad : UInt64 := 0
  adjustmentLoad : UInt64 := 0
  loadSources : ℕ := 0
  deviations : UInt64 := 0
  stdDeviation : ℕ := 0
  numOver : ℕ := 0
  numUnder : ℕ := 0
  numPowersave : ℕ := 0
  powersave : Option ObjId := none

/-- `gather_load_stats`. -/
def gatherLoadStats (s : State) (info : LoadBalanceInfo) (obj : ObjId) : LoadBalanceInfo :=
  let load := (s.objs obj).load
  { info with
    minLoad := if info.minLoad = 0 ∨ load < info.minLoad then load else info.minLoad
    totalLoad := info.totalLoad + load
    loadSources := info.loadSources + 1 }

/-- `compute_deviations`. -/
def computeDeviations (s : State) (info : LoadBalanceInfo) (obj : ObjId) : LoadBalanceInfo :=
  let load := (s.objs obj).load
  let deviation := if info.avgLoad < load then load - info.avgLoad else info.avgLoad - load
  { info with deviations := info.deviations + deviation * deviation }

/-- `move_candidate_irqs`. -/
def moveCandidateIrqs (i : IrqId) (p : State × LoadBalanceInfo) : Option (State × LoadBalanceInfo) :=
  let s := p.1
  let lb := p.2
  let info := s.irqs i
  if info.hasHint .exact then some p
  else if info.level = .none then some p
  else match info.assignedObj with
    -- `info->assigned_obj->interrupts` through NULL
    | none => none
    | some obj =>
      if (s.objs obj).interrupts.length ≤ 1 then some p
      else if info.load ≤ 1 then some p
      else if lb.adjustmentLoad - info.load > lb.minLoad + info.load then
        let s := migrateIrq (some obj) none i s
        some (s.modIrq i fun info => { info with assignedObj := none },
          { lb with
            adjustmentLoad := lb.adjustmentLoad - info.load
            minLoad := lb.minLoad + info.load })
      else some p

/-- The significand of `long double`, in bits. -/
def ldblMantDig : ℕ := 113

/-- The unit of `stdDeviation`, as a number of bits behind the point. -/
def stdFracBits : ℕ := 52

/-- `(obj->load + info->std_deviation) <= info->avg_load`. -/
def isUnder (load : UInt64) (info : LoadBalanceInfo) : Bool :=
  Round.sig ldblMantDig (load.toNat * 2 ^ stdFracBits + info.stdDeviation) ≤
    info.avgLoad.toNat * 2 ^ stdFracBits

/-- `(obj->load - info->std_deviation) >= info->avg_load`; a negative difference is below. -/
def isOver (load : UInt64) (info : LoadBalanceInfo) : Bool :=
  info.stdDeviation ≤ load.toNat * 2 ^ stdFracBits &&
    info.avgLoad.toNat * 2 ^ stdFracBits ≤
      Round.sig ldblMantDig (load.toNat * 2 ^ stdFracBits - info.stdDeviation)

/-- The counters that `migrate_overloaded_irqs` updates for an object. -/
def countObj (s : State) (info : LoadBalanceInfo) (obj : ObjId) : LoadBalanceInfo :=
  let o := s.objs obj
  let info := { info with
    numPowersave := if o.powersaveMode then info.numPowersave + 1 else info.numPowersave }
  if isUnder o.load info then
    { info with
      numUnder := info.numUnder + 1
      powersave :=
        if s.opts.powerThresh ≠ ullongMax ∧ info.powersave = none ∧ o.powersaveMode = false then
          some obj
        else info.powersave }
  else if isOver o.load info then { info with numOver := info.numOver + 1 }
  else info

/-- `migrate_overloaded_irqs` behind the counters. -/
def migrateObjIrqs (obj : ObjId) (p : State × LoadBalanceInfo) : Option (State × LoadBalanceInfo) :=
  let s := p.1
  let info := p.2
  let o := s.objs obj
  if info.minLoad < o.load ∧ 1 < o.interrupts.length then
    forEachIrqOn Prod.fst (fun s => (s.objs obj).interrupts) moveCandidateIrqs
      (sortIrqList (some obj) s, { info with adjustmentLoad := o.load })
  else some p

/-- `migrate_overloaded_irqs`. -/
def migrateOverloadedIrqs (p : State × LoadBalanceInfo) (obj : ObjId) :
    Option (State × LoadBalanceInfo) :=
  migrateObjIrqs obj (p.1, countObj p.1 p.2 obj)

/-- `force_irq_migration`. -/
def forceIrqMigration (i : IrqId) (s : State) : Option State :=
  match (s.irqs i).assignedObj with
  | none => none
  | some obj =>
    some ((migrateIrq (some obj) none i s).modIrq i fun info => { info with assignedObj := none })

/-- `clear_powersave_mode`. -/
def clearPowersaveMode (s : State) (obj : ObjId) : State :=
  s.modObj obj fun o => { o with powersaveMode := false }

/-- The statistics that `find_overloaded_objs` computes before it looks at single objects. -/
def loadStats (name : List ObjId) (s : State) : LoadBalanceInfo :=
  let info := name.foldl (gatherLoadStats s) {}
  let info := { info with loadSources := if info.loadSources = 0 then 1 else info.loadSources }
  let info := { info with avgLoad := info.totalLoad / UInt64.ofNat info.loadSources }
  let info := name.foldl (computeDeviations s) info
  -- `sqrt` takes and returns `double`
  let variance := info.deviations / UInt64.ofNat (info.loadSources - 1)
  { info with
    stdDeviation :=
      if info.loadSources = 1 then 0
      else Round.sqrtSig stdFracBits (Round.sig 53 variance.toNat) }

/-- `find_overloaded_objs`. -/
def findOverloadedObjs (name : List ObjId) (s : State) : Option (State × LoadBalanceInfo) :=
  name.foldlM migrateOverloadedIrqs (s, loadStats name s)

/-- The powersave decision of `update_migration_status`, after the pass over the cpus. -/
def updatePowersave (s : State) (info : LoadBalanceInfo) : Option State :=
  if s.opts.powerThresh ≠ ullongMax ∧ 5 < s.cycleCount then
    match info.powersave with
    | some cpu =>
      if info.numOver = 0 ∧ s.opts.powerThresh.toNat ≤ info.numUnder then
        let s := s.modObj cpu fun o => { o with powersaveMode := true }
        if (s.objs cpu).interrupts = [] then some s
        else forEachIrq (fun s => (s.objs cpu).interrupts) forceIrqMigration s
      else if info.numOver ≠ 0 ∧ info.numPowersave ≠ 0 then some (s.cpus.foldl clearPowersaveMode s)
      else some s
    | none =>
      if info.numOver ≠ 0 ∧ info.numPowersave ≠ 0 then some (s.cpus.foldl clearPowersaveMode s)
      else some s
  else some s

/-- `update_migration_status`. -/
def updateMigrationStatus (s : State) : Option State := do
  let r ← findOverloadedObjs s.cpus s
  let s ← updatePowersave r.1 r.2
  let r ← findOverloadedObjs s.cacheDomains s
  let r ← findOverloadedObjs r.1.packages r.1
  let r ← findOverloadedObjs r.1.numaNodes r.1
  some r.1

end IrqBalance
