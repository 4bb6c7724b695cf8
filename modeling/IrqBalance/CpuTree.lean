import IrqBalance.IrqLists
import IrqBalance.Numa

/-!
# `cputree.c`: packages, cache domains and cpus

`parse_cpu_tree` reads `/sys/devices/system/cpu` and builds the three lower layers of the topology,
one cpu directory at a time. Cache domains and packages are looked up by their masks.

A directory whose number lies outside the mask makes `cpu_set` write out of bounds and ends the model
with `none`. The initial bits of the local variable `package_mask` are whatever the stack holds: they
are part of the environment (`CpuDir.stack`).
-/

namespace IrqBalance

open CString

/-- A directory `/sys/devices/system/cpu/<d_name>` at the time it is read. -/
structure CpuDir where
  dName : Text
  online : Option Text := none
  coreSiblings : Option Text := none
  physicalPackageId : Option Text := none
  /-- `cache/index1/shared_cpu_map`, `cache/index2/shared_cpu_map`, .. as long as `stat` finds
  them; `none` for a file that cannot be opened all the same -/
  sharedCpuMaps : List (Option Text) := []
  /-- the names in the directory, for its `node*` links -/
  entries : List Text := []
  /-- the initial contents of the variable `package_mask` of `do_one_cpu` -/
  stack : Cpumask := 0

/-- What `parse_cpu_tree` and `setup_banned_cpus` read. -/
structure CpuSysfs where
  /-- the environment variable `IRQBALANCE_BANNED_CPUS` -/
  bannedCpus : Option Text := none
  isolated : Option Text := none
  nohzFull : Option Text := none
  cpuDir : Option (List CpuDir) := none

/-! ### Banned cpus -/

/-- One of the files `isolated` and `nohz_full`. -/
def cpulistFile (file : Option Text) : Cpumask :=
  match file.map firstLine with
  | none => 0
  | some line => if line ≠ [] ∧ line.head? ≠ some '\n' then cpulistParse line else 0

/-- `setup_banned_cpus`: the mask it stores in `banned_cpus`. -/
def setupBannedCpus (fs : CpuSysfs) : Cpumask :=
  match fs.bannedCpus with
  | some text => cpumaskParseUser (cstr text)
  | none => cpulistFile fs.nohzFull ||| cpulistFile fs.isolated

/-! ### One cpu directory -/

/-- The cpu is not offline. -/
def CpuDir.isOnline (d : CpuDir) : Bool :=
  match d.online with
  | none => true
  | some text => (firstLine text).head? ≠ some '0'

/-- `cpu->number`. -/
def CpuDir.number (d : CpuDir) : ℤ := toInt (strtoul (d.dName.drop 3)).1

/-- The solitary mask of the cpu. -/
def CpuDir.mask (d : CpuDir) : Cpumask := cpumaskOfCpu d.number.toNat

/-- `package_mask`, before the banned cpus are taken out. -/
def CpuDir.coreSiblingsMask (d : CpuDir) : Cpumask :=
  match d.coreSiblings with
  | none => d.stack ||| d.mask
  | some text => cpumaskParseUser (firstLine text)

/-- `packageid`. -/
def CpuDir.packageId (d : CpuDir) : ℤ :=
  match d.physicalPackageId with
  | none => 0
  | some text => toInt (strtoul (firstLine text)).1

/-- The loop that looks for the deepest cache index, from `index` on. -/
def maxCacheIndexFrom (deepest : ℕ) (index : ℕ) : List (Option Text) → ℕ
  | [] => index - 1
  | _ :: maps => if index = deepest then index else maxCacheIndexFrom deepest (index + 1) maps

/-- `cache_mask`, before the banned cpus are taken out. -/
def CpuDir.sharedCpuMask (d : CpuDir) (deepest : ℕ) : Cpumask :=
  match maxCacheIndexFrom deepest 1 d.sharedCpuMaps with
  | 0 => d.mask
  | index + 1 =>
    match d.sharedCpuMaps[index]? with
    | some (some text) => cpumaskParseUser (firstLine text)
    | _ => d.mask

/-- `nodeid`. -/
def CpuDir.nodeid (d : CpuDir) (numaAvail : Bool) : ℤ :=
  if !numaAvail then -1
  else match d.entries.find? fun e => strstr e "node".toList with
    | none => -1
    | some e => toInt (strtoul (e.drop 4)).1

/-! ### The three layers -/

/-- Append `kid` to the children of `o`, and make `o` its parent, unless it is there already. -/
def linkChild (o kid : ObjId) (s : State) : State :=
  if kid ∈ (s.objs o).children then s
  else (s.modObj o fun ob => { ob with children := ob.children ++ [kid] }).modObj kid
    fun ob => { ob with parent := some o }

/-- The package with the given mask, which is made if there is none. -/
def findPackage (packageid : ℤ) (mask : Cpumask) (s : State) : ObjId × State :=
  match s.packages.find? fun p => mask = (s.objs p).mask with
  | some p => (p, s)
  | none =>
    let new : TopoObj := { mask := mask, objType := .package, number := packageid }
    (s.nextObj, { s.callocObj new with
      packages := s.packages ++ [s.nextObj]
      packageCount := s.packageCount + 1 })

/-- `add_cache_domain_to_package`. -/
def addCacheDomainToPackage (cache : ObjId) (packageid : ℤ) (mask : Cpumask) (s : State) :
    ObjId × State :=
  let ps := findPackage packageid mask s
  (ps.1, linkChild ps.1 cache ps.2)

/-- The cache domain with the given mask, which is made if there is none. -/
def findCacheDomain (mask : Cpumask) (s : State) : ObjId × State :=
  match s.cacheDomains.find? fun c => mask = (s.objs c).mask with
  | some c => (c, s)
  | none =>
    let new : TopoObj := { mask := mask, objType := .cache, number := s.cacheDomainCount }
    (s.nextObj, { s.callocObj new with
      cacheDomains := s.cacheDomains ++ [s.nextObj]
      cacheDomainCount := s.cacheDomainCount + 1 })

/-- `add_cpu_to_cache_domain`. -/
def addCpuToCacheDomain (cpu : ObjId) (mask : Cpumask) (s : State) : ObjId × State :=
  let cs := findCacheDomain mask s
  (cs.1, linkChild cs.1 cpu cs.2)

/-- `do_one_cpu` from the point where the cpu is known to be neither offline nor banned. -/
def addCpu (d : CpuDir) (s : State) : State :=
  let cpu := s.nextObj
  let cacheMask := d.sharedCpuMask s.opts.deepestCache &&& s.unbannedCpus
  let packageMask := d.coreSiblingsMask &&& s.unbannedCpus
  let s := s.callocObj { objType := .cpu, number := d.number, mask := d.mask }
  let cs := addCpuToCacheDomain cpu cacheMask s
  let ps := addCacheDomainToPackage cs.1 d.packageId packageMask cs.2
  let s := addPackageToNode ps.1 (d.nodeid s.opts.numaAvail) ps.2
  { s with cpus := s.cpus ++ [cpu], coreCount := s.coreCount + 1 }

/-- `do_one_cpu`. -/
def doOneCpu (d : CpuDir) (s : State) : Option State :=
  if !d.isOnline then some s
  -- `cpu_set` outside the mask
  else if d.number < 0 ∨ nrCpus ≤ d.number then none
  else if cpusIntersects d.mask s.bannedCpus then some { s with coreCount := s.coreCount + 1 }
  else some (addCpu d s)

/-! ### The tree -/

/-- `sscanf(d_name, "cpu%d%c", ..) == 1 && !strchr(d_name, ' ')`. -/
def isCpuDir (d : CpuDir) : Bool :=
  "cpu".toList.isPrefixOf d.dName &&
    (match scanDigits (d.dName.drop 3) with | (_, ds, rest) => ds ≠ [] ∧ rest = []) &&
    !d.dName.contains ' '

/-- `parse_cpu_tree`. -/
def parseCpuTree (fs : CpuSysfs) (s : State) : Option State :=
  let banned := setupBannedCpus fs
  let s := { s with bannedCpus := banned, unbannedCpus := ~~~banned }
  match fs.cpuDir with
  | none => some s
  | some dirs => (dirs.filter isCpuDir).foldlM (fun s d => doOneCpu d s) s

/-- `clear_cpu_tree`. -/
def clearCpuTree (s : State) : State :=
  { s with
    packages := [], packageCount := 0, cacheDomains := [], cacheDomainCount := 0
    cpus := [], coreCount := 0 }

/-- `find_cpu_core`. -/
def findCpuCore (s : State) (cpunr : ℤ) : Option ObjId :=
  s.cpus.find? fun c => (s.objs c).number = cpunr

/-! ### Work statistics -/

/-- A bound on the depth of the recursions over `children` and `parent`. A chain of distinct objects
is shorter; a deeper recursion is one that C does not end either. -/
def depthBound (s : State) : ℕ := s.nextObj + 4

/-- `clear_irq_stats`. -/
def clearIrqStats (i : IrqId) (s : State) : Option State :=
  some (s.modIrq i fun info => { info with load := 0 })

/-- `clear_obj_stats`, with a bound on the depth of the recursion. -/
def clearObjStats : ℕ → ObjId → State → Option State
  | 0, _, _ => none
  | n + 1, d, s => do
    let s ← (s.objs d).children.foldlM (fun s c => clearObjStats n c s) s
    forEachIrq (fun s => (s.objs d).interrupts) clearIrqStats s

/-- `clear_work_stats`. -/
def clearWorkStats (s : State) : Option State :=
  s.numaNodes.foldlM (fun s d => clearObjStats (depthBound s) d s) s

end IrqBalance
