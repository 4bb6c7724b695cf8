import IrqBalance.ProcInterrupts

/-!
# `classify.c`: the irq database

`rebuild_irq_db` discovers irqs on three paths: the `msi_irqs` directory of a PCI device, its `irq`
file, and, for what is left, the list that `collect_full_irq_list` made of `/proc/interrupts`. Each
path makes its own decision whether to put the irq in `interrupts_db` or in `banned_irqs`.
-/

namespace IrqBalance

open CString

/-- `map_class_to_level`. -/
def mapClassToLevel : IrqClass → BalanceLevel
  | .other => .package
  | .legacy => .cache
  | _ => .core

/-! ### PCI classes -/

/-- The files of a PCI device directory that hold a number. -/
inductive PciFile
  | vendor
  | device
  | subsystemVendor
  | subsystemDevice
  | pciClass
deriving DecidableEq

/-- A directory of `/sys/bus/pci/devices` at the time it is read. -/
structure PciDev where
  devpath : Text
  /-- the names in `msi_irqs`, if the directory can be opened -/
  msiIrqs : Option (List Text) := none
  /-- the file `irq`, if it can be opened; and the value of `irqnum` after `fscanf`, unless that
  meets the end of the file -/
  irqFile : Option (Option ℤ) := none
  /-- the number in a file; `none` stands for `PCI_INVAL_DATA` -/
  pciData : PciFile → Option (BitVec 32) := fun _ => none
  /-- the number in the file `numa_node` -/
  numaNode : Option ℤ := none

/-- `struct pci_info`. -/
structure PciInfo where
  vendor : BitVec 16
  device : BitVec 16
  subVendor : BitVec 16
  subDevice : BitVec 16
  pciClass : BitVec 32

/-- `major_class_codes`. -/
def majorClassCodes : List (Option IrqClass) :=
  [some .other, some .scsi, some .eth, some .video, some .other, some .other, some .legacy,
    some .other, some .other, some .legacy, some .other, some .other, none, some .eth, some .scsi,
    some .other, some .other, some .other, some .legacy, some .legacy]

/-- `serial_sub_codes`. -/
def serialSubCodes (sub : ℕ) : Option IrqClass :=
  if sub = 4 ∨ sub = 6 then some .scsi
  else if sub < 0xa ∨ sub = 0x80 then some .legacy
  else none

/-- `map_pci_irq_class`; `none` stands for `IRQ_NODEF`. -/
def mapPciIrqClass (pciClass : BitVec 32) : Option IrqClass :=
  let major := pciClass.toNat / 2 ^ 16
  let sub := pciClass.toNat / 2 ^ 8 % 2 ^ 8
  if major = 0xc then serialSubCodes sub else majorClassCodes[major]?.join

/-- `apply_pci_quirks`. -/
def applyPciQuirks (pci : PciInfo) (cls : IrqClass) : IrqClass :=
  if pci.vendor = 0x10b5 ∧ pci.device = 0x8619 ∧ pci.subVendor = 0x1120 ∧
      (pci.subDevice = 0x055b ∨ pci.subDevice = 0xdd00) then .scsi
  else if pci.vendor = 0x177d ∧ pci.device = 0x0093 ∧ pci.subVendor = 0x1120 ∧
      pci.subDevice = 0x0568 then .scsi
  else cls

/-- `get_pci_info`. -/
def getPciInfo (dev : PciDev) : Option PciInfo := do
  let vendor ← dev.pciData .vendor
  let device ← dev.pciData .device
  let subVendor ← dev.pciData .subsystemVendor
  let subDevice ← dev.pciData .subsystemDevice
  let pciClass ← dev.pciData .pciClass
  some ⟨vendor.setWidth 16, device.setWidth 16, subVendor.setWidth 16, subDevice.setWidth 16, pciClass⟩

/-- `get_irq_class`; `none` stands for `IRQ_NODEF`. -/
def getIrqClass (dev : PciDev) : Option IrqClass := do
  let pci ← getPciInfo dev
  let cls ← mapPciIrqClass pci.pciClass
  some (applyPciQuirks pci cls)

/-! ### Bans on the command line -/

/-- `add_cl_banned_irq`. Of the records in `cl_banned_irqs` only the number is ever read. -/
def addClBannedIrq (irq : ℤ) (opts : Options) : Options :=
  if irq ∈ opts.clBannedIrqs then opts
  else { opts with clBannedIrqs := opts.clBannedIrqs ++ [irq] }

/-- `add_cl_banned_module`: a name that contains one already stored is not stored. -/
def addClBannedModule (modname : Text) (opts : Options) : Options :=
  if opts.clBannedModules.any fun m => strstr modname m then opts
  else { opts with clBannedModules := opts.clBannedModules ++ [modname] }

/-- `add_banned_irqs_by_names`. -/
def addBannedIrqsByNames (nameList : Text) (opts : Options) : Options :=
  { opts with bannedIrqNames := opts.bannedIrqNames ++ strtok (· = ',') nameList }

/-- `g_list_find_custom(bans, name, substr_find) != NULL`: some ban occurs in the name. A record
without a name makes `strstr` read NULL, if there is anything to compare with. -/
def findSubstr (bans : List Text) : Option Text → Option Bool
  | some name => some (bans.any fun b => strstr name b)
  | none => if bans = [] then some false else none

/-- `is_banned_irq_name`. -/
def isBannedIrqName (opts : Options) (name : Option Text) : Option Bool :=
  findSubstr opts.bannedIrqNames name

/-- `check_for_module_ban`. -/
def checkForModuleBan (opts : Options) (name : Option Text) : Option Bool :=
  findSubstr opts.clBannedModules name

/-! ### User policy -/

/-- `struct user_irq_policy`; the default values are the `-1`s. -/
structure UserIrqPolicy where
  ban : Option Bool := none
  level : Option BalanceLevel := none
  numaNode : Option ℤ := none
  hintpolicy : HintPolicy

/-- The value of `balance_level` in `levelvals`. -/
def levelval (value : Text) : Option BalanceLevel :=
  if strcaseeq "none".toList value then some .none
  else if strcaseeq "package".toList value then some .package
  else if strcaseeq "cache".toList value then some .cache
  else if strcaseeq "core".toList value then some .core
  else none

/-- `parse_user_policy_key`. -/
def parseUserPolicyKey (s : State) (pol : UserIrqPolicy) (buf : Text) : UserIrqPolicy :=
  if !buf.contains '=' then pol
  else
    let key := buf.takeWhile (· ≠ '=')
    let value := (buf.dropWhile (· ≠ '=')).tail.takeWhile (· ≠ '\n')
    if strcaseeq "ban".toList key then
      if strcaseeq "false".toList value then { pol with ban := some false }
      else if strcaseeq "true".toList value then { pol with ban := some true }
      else pol
    else if strcaseeq "balance_level".toList key then
      match levelval value with
      | some l => { pol with level := some l }
      | none => pol
    else if strcaseeq "numa_node".toList key then
      let idx := toInt (strtoul value).1
      if getNumaNode s idx = none then pol else { pol with numaNode := some idx }
    else if strcaseeq "hintpolicy".toList key then
      if strcaseeq "exact".toList value then { pol with hintpolicy := .exact }
      else if strcaseeq "subset".toList value then { pol with hintpolicy := .subset }
      else if strcaseeq "ignore".toList value then { pol with hintpolicy := .ignore }
      else pol
    else pol

/-- What the discovery of irqs reads, besides `/sys/bus/pci/devices` and `/proc/interrupts`. -/
structure IrqEnv where
  /-- the output of the policy script for a device path and an irq; `none` if it cannot be run -/
  policy : Text → ℤ → Option Text := fun _ _ => none
  /-- `/proc/irq/N/affinity_hint` -/
  affinityHint : ℤ → Option Text := fun _ => none

/-- `get_irq_user_policy`. -/
def getIrqUserPolicy (env : IrqEnv) (path : Option Text) (irq : ℤ) (s : State) : UserIrqPolicy :=
  let defaults : UserIrqPolicy := { hintpolicy := s.opts.globalHintPolicy }
  if !s.opts.polscript then defaults
  else match env.policy (path.getD "/sys".toList) irq with
    | none => defaults
    | some output => ((fgets 127 output).map cstr).foldl (parseUserPolicyKey s) defaults

/-! ### The database -/

/-- `calloc` of a `struct irq_info`, with the fields its caller sets; the pointer is `s.nextIrq`. -/
def State.callocIrq (s : State) (info : IrqInfo) : State :=
  { s with irqs := fun i => if i = s.nextIrq then info else s.irqs i, nextIrq := s.nextIrq + 1 }

/-- `is_banned_irq`. -/
def isBannedIrq (s : State) (irq : ℤ) : Bool := s.bannedIrqs.any (sameIrq s irq)

/-- `add_banned_irq(irq, &banned_irqs)`. -/
def addBannedIrq (irq : ℤ) (s : State) : State :=
  if isBannedIrq s irq then s
  else { s.callocIrq { irq := irq, hintPolicy := .exact } with
    bannedIrqs := s.bannedIrqs ++ [s.nextIrq] }

/-- The mask in `/proc/irq/N/affinity_hint`. -/
def readAffinityHint (env : IrqEnv) (irq : ℤ) : Cpumask :=
  match env.affinityHint irq with
  | none => 0
  | some [] => 0
  | some text => cpumaskParseUser (firstLine text)

/-- The class and the level that `add_one_irq_to_db` sets. A PCI device without a known class skips
the assignment of both, which leaves what `calloc` and `new->class = IRQ_OTHER` put there. -/
def classAndLevel (dev : Option PciDev) (pol : UserIrqPolicy) : IrqClass × BalanceLevel :=
  match dev with
  | none => (.other, pol.level.getD (mapClassToLevel .other))
  | some dev =>
    match getIrqClass dev with
    | none => (.other, .none)
    | some cls => (cls, pol.level.getD (mapClassToLevel cls))

/-- `add_one_irq_to_db`: the new record, if one is made, and the state. -/
def addOneIrqToDb (env : IrqEnv) (dev : Option PciDev) (irq : ℤ) (pol : UserIrqPolicy) (s : State) :
    Option IrqId × State :=
  if s.interruptsDb.any (sameIrq s irq) then (none, s)
  else if isBannedIrq s irq then (none, s)
  else
    let cl := classAndLevel dev pol
    let numaNode := if s.opts.numaAvail then (dev.bind PciDev.numaNode).getD (-1) else -1
    let new : IrqInfo :=
      { irq := irq
        irqClass := cl.1
        level := cl.2
        numaNode := getNumaNode s (pol.numaNode.getD numaNode)
        affinityHint := readAffinityHint env irq
        hintPolicy := pol.hintpolicy }
    (some s.nextIrq, { s.callocIrq new with interruptsDb := s.interruptsDb ++ [s.nextIrq] })

/-- `check_for_irq_ban`, without the support for ban scripts, which is not compiled in. -/
def checkForIrqBan (s : State) (irq : ℤ) (procInterrupts : List IrqInfo) : Option Bool :=
  if irq ∈ s.opts.clBannedIrqs then some true
  else match procInterrupts.find? fun res => res.irq = irq with
    | none => some false
    | some res => checkForModuleBan s.opts res.name

/-- The steps that `build_one_dev_entry` takes for one irq of a PCI device. -/
def addDevIrq (env : IrqEnv) (dev : PciDev) (type : IrqType) (tmpIrqs : List IrqInfo) (irqnum : ℤ)
    (s : State) : Option State :=
  if (getIrqInfo s irqnum).isSome then some s
  else
    let pol := getIrqUserPolicy env (some dev.devpath) irqnum s
    if pol.ban = some true then some (addBannedIrq irqnum s)
    else do
      let banned ← checkForIrqBan s irqnum tmpIrqs
      if banned then some (addBannedIrq irqnum s)
      else
        let new := addOneIrqToDb env (some dev) irqnum pol s
        match new.1 with
        | none => some new.2
        | some i => some (new.2.modIrq i fun info => { info with type := type })

/-- `build_one_dev_entry`. -/
def buildOneDevEntry (env : IrqEnv) (tmpIrqs : List IrqInfo) (s : State) (dev : PciDev) :
    Option State :=
  match dev.msiIrqs with
  | some names =>
    names.foldlM (fun s name =>
      let irqnum := toInt (strtol name)
      if irqnum = 0 then some s else addDevIrq env dev .msix tmpIrqs irqnum s) s
  | none =>
    match dev.irqFile with
    | none => some s
    | some none => some s
    | some (some irqnum) =>
      if irqnum = 0 then some s else addDevIrq env dev .legacy tmpIrqs irqnum s

/-- `free_irq_db`. -/
def freeIrqDb (s : State) : State :=
  { s with interruptsDb := [], bannedIrqs := [], rebalanceIrqList := [] }

/-- `add_new_irq`. The hint comes from a list of hints, or, when `for_each_irq` was given an empty
list, from the database, whose records have no name. -/
def addNewIrq (env : IrqEnv) (irq : ℤ) (hint : IrqInfo) (procInterrupts : List IrqInfo) (s : State) :
    Option State :=
  if (getIrqInfo s irq).isSome then some s
  else do
    let nameBan ← isBannedIrqName s.opts hint.name
    if nameBan then some s
    else
      let pol := getIrqUserPolicy env none irq s
      let banned ← (if pol.ban = some true then some true else checkForIrqBan s irq procInterrupts)
      let r : Option IrqId × State :=
        if banned then
          let s := addBannedIrq irq s
          (getIrqInfo s irq, s)
        else addOneIrqToDb env none irq pol s
      match r.1 with
      | none => some r.2
      | some i => some (r.2.modIrq i fun info =>
          { info with
            type := hint.type, irqClass := hint.irqClass, level := mapClassToLevel hint.irqClass })

/-- `add_missing_irq`. The list it passes on is `interrupts_db` as it stood when the walk began: a
pointer to its first node, so that a list that was empty then stays empty, and any other has grown
since. -/
def addMissingIrq (env : IrqEnv) (emptyDb : Bool) (s : State) (info : IrqInfo) : Option State :=
  if (getIrqInfo s info.irq).isSome then some s
  else addNewIrq env info.irq info (if emptyDb then [] else s.interruptsDb.map s.irqs) s

/-- `rebuild_irq_db`. With an empty list of hints `for_each_irq` walks the database instead, where
`add_missing_irq` finds every irq, so that nothing happens. -/
def rebuildIrqDb (env : IrqEnv) (platform : Text → Option (List Text)) (procInterrupts : Option Text)
    (pciDir : Option (List PciDev)) (s : State) : Option State := do
  let s := freeIrqDb s
  let tmpIrqs ← collectFullIrqList platform procInterrupts s
  match pciDir with
  | none => some s
  | some devs => do
    let s ← devs.foldlM (buildOneDevEntry env tmpIrqs) s
    tmpIrqs.foldlM (addMissingIrq env s.interruptsDb.isEmpty) s

end IrqBalance
