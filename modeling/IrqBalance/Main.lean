import IrqBalance.Activate

/-!
# `irqbalance.c`: the command line, (re)building and the main loop

`main` after its initialization is a transition system: a state is a program point and the global
variables, a step is one statement, and each statement reads its own snapshot of the files (`Env`).
The handler of `SIGHUP` may run between any two statements (`Reach.hup`).

`Reach A` are the states of the runs all of whose statements start in states that satisfy `A`.
Statements that only log or sleep are left out.
-/

namespace IrqBalance

open CString

/-! ### The command line -/

/-- The options of `parse_command_line` that the model has a use for, with their arguments. -/
inductive Opt
  | deepestCache (arg : Text)
  | hintPolicy (arg : Text)
  | banIrq (arg : Text)
  | policyScript
  | banMod (arg : Text)
  | powerThresh (arg : Text)
  | banIrqName (arg : Text)

/-- One round of the switch of `parse_command_line`; `none` stands for `exit(1)`. -/
def parseOpt (opts : Options) : Opt → Option Options
  | .deepestCache arg =>
    let n := (strtoul arg).1
    if n = ullongMax.toNat ∨ n < 1 then none else some { opts with deepestCache := n }
  | .hintPolicy arg =>
    if arg.isPrefixOf "exact".toList then some { opts with globalHintPolicy := .exact }
    else if arg.isPrefixOf "subset".toList then some { opts with globalHintPolicy := .subset }
    else if arg.isPrefixOf "ignore".toList then some { opts with globalHintPolicy := .ignore }
    else none
  | .banIrq arg =>
    let n := (strtoul arg).1
    if n = ullongMax.toNat then none else some (addClBannedIrq (toInt n) opts)
  | .policyScript => some { opts with polscript := true }
  | .banMod arg => some (addClBannedModule arg opts)
  | .powerThresh arg =>
    if arg.isPrefixOf "off".toList then some { opts with powerThresh := ullongMax }
    else
      let n := (strtoul arg).1
      if n = ullongMax.toNat then none else some { opts with powerThresh := UInt64.ofNat n }
  | .banIrqName arg => some (addBannedIrqsByNames arg opts)

/-- `parse_command_line`. -/
def parseCommandLine (opts : Options) (args : List Opt) : Option Options := args.foldlM parseOpt opts

/-! ### Building and freeing the object tree -/

/-- What the statements of `main` read from outside. -/
structure Env where
  nodeDir : Option (List NodeDir) := none
  cpuSysfs : CpuSysfs := {}
  pciDir : Option (List PciDev) := none
  irqEnv : IrqEnv := {}
  platform : Text → Option (List Text) := fun _ => none
  procInterrupts : Option Text := none
  procStat : Option Text := none
  procIrq : ProcIrq := {}
  /-- the value of `keep_going` -/
  keepGoing : Bool := true

/-- `build_object_tree`. -/
def buildObjectTree (env : Env) (s : State) : Option State := do
  let s := buildNumaNodeList env.nodeDir s
  let s ← parseCpuTree env.cpuSysfs s
  rebuildIrqDb env.irqEnv env.platform env.procInterrupts env.pciDir s

/-- `free_object_tree`. -/
def freeObjectTree (s : State) : State := freeIrqDb (clearCpuTree (freeNumaNodeList s))

/-- `force_rebalance_irq`. -/
def forceRebalanceIrq (i : IrqId) (s : State) : Option State :=
  if (s.irqs i).level = .none then some s
  else
    let s := match (s.irqs i).assignedObj with
      | none => { s with rebalanceIrqList := s.rebalanceIrqList ++ [i] }
      | some obj => migrateIrq (some obj) none i s
    some (s.modIrq i fun info => { info with assignedObj := none })

/-- `for_each_irq(NULL, force_rebalance_irq, NULL)`. -/
def forceRebalance (s : State) : Option State := forEachIrq State.interruptsDb forceRebalanceIrq s

/-! ### The main loop -/

/-- The program points of `main`, each named after the statement that comes next. -/
inductive Pc
  /-- `build_object_tree` and the test of `core_count` -/
  | start
  | forceRebalance
  | parseInterrupts
  | parseStat
  /-- `while (keep_going)` -/
  | loop
  | loopClearStats
  | loopInterrupts
  | loopStat
  /-- `if (need_rescan)` -/
  | rescanTest
  | resetNeedRescan
  | resetCycleCount
  | rescanClearStats
  | freeTree
  | buildTree
  | rescanForceRebalance
  | rescanInterrupts
  | rescanStat
  | settleClearStats
  | settleInterrupts
  | settleStat
  /-- `if (cycle_count) update_migration_status()` -/
  | migration
  | placement
  | activation
  /-- `cycle_count++` -/
  | countCycle
  /-- the loop has ended -/
  | done
deriving DecidableEq

/-- One statement of `main`: the next program point and the state. -/
def exec (env : Env) : Pc → State → Option (Pc × State)
  | .start, s => do
    let s ← buildObjectTree env s
    if s.coreCount < 2 then some (.done, s) else some (.forceRebalance, s)
  | .forceRebalance, s => (forceRebalance s).map (.parseInterrupts, ·)
  | .parseInterrupts, s => some (.parseStat, parseProcInterrupts env.procInterrupts s)
  | .parseStat, s => (parseProcStat env.procStat s).map (.loop, ·)
  | .loop, s => some (if env.keepGoing then .loopClearStats else .done, s)
  | .loopClearStats, s => (clearWorkStats s).map (.loopInterrupts, ·)
  | .loopInterrupts, s => some (.loopStat, parseProcInterrupts env.procInterrupts s)
  | .loopStat, s => (parseProcStat env.procStat s).map (.rescanTest, ·)
  | .rescanTest, s => some (if s.needRescan then .resetNeedRescan else .migration, s)
  | .resetNeedRescan, s => some (.resetCycleCount, { s with needRescan := false })
  | .resetCycleCount, s => some (.rescanClearStats, { s with cycleCount := 0 })
  | .rescanClearStats, s => (clearWorkStats s).map (.freeTree, ·)
  | .freeTree, s => some (.buildTree, freeObjectTree s)
  | .buildTree, s => (buildObjectTree env s).map (.rescanForceRebalance, ·)
  | .rescanForceRebalance, s => (forceRebalance s).map (.rescanInterrupts, ·)
  | .rescanInterrupts, s => some (.rescanStat, parseProcInterrupts env.procInterrupts s)
  | .rescanStat, s => (parseProcStat env.procStat s).map (.settleClearStats, ·)
  | .settleClearStats, s => (clearWorkStats s).map (.settleInterrupts, ·)
  | .settleInterrupts, s => some (.settleStat, parseProcInterrupts env.procInterrupts s)
  | .settleStat, s => (parseProcStat env.procStat s).map (.migration, ·)
  | .migration, s =>
    if s.cycleCount = 0 then some (.placement, s)
    else (updateMigrationStatus s).map (.placement, ·)
  | .placement, s => (calculatePlacement s).map (.activation, ·)
  | .activation, s => (activateMappings env.procIrq s).map (.countCycle, ·)
  | .countCycle, s => some (.loop, { s with cycleCount := s.cycleCount + 1 })
  | .done, _ => none

/-- `force_rescan`, the handler of `SIGHUP`. -/
def forceRescan (s : State) : State := if s.cycleCount = 0 then s else { s with needRescan := true }

/-- The states of the runs of `main` whose statements all start in states that satisfy `A`. In
`config.h` there is no `numa.h`, which makes `numa_available()` the constant -1 and `numa_avail` 0. -/
inductive Reach (A : Env → Pc → State → Prop) : Pc → State → Prop
  | init (opts : Options) (smpAffinity : ℤ → Cpumask) (h : opts.numaAvail = false) :
      Reach A .start (State.initial opts smpAffinity)
  | step {env : Env} {pc pc' : Pc} {s s' : State} :
      Reach A pc s → A env pc s → exec env pc s = some (pc', s') → Reach A pc' s'
  | hup {pc : Pc} {s : State} : Reach A pc s → pc ≠ .start → Reach A pc (forceRescan s)

/-- No restriction on the statements. -/
def anyStep : Env → Pc → State → Prop := fun _ _ _ => True

end IrqBalance
