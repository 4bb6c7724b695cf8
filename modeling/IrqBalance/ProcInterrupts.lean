import IrqBalance.CpuTree
import IrqBalance.Lib.Round

/-!
# `procinterrupts.c`: `/proc/interrupts` and `/proc/stat`

`collect_full_irq_list` and `parse_proc_interrupts` read the same lines of `/proc/interrupts`
(`procLine`). The first makes a list of hints for the irq database, the second updates the counters
and asks for a rescan when the file does not fit the state. `parse_proc_stat` stores the load of each
cpu, sums the loads up the tree and splits them among the irqs.

The model is the AARCH64 build.
-/

namespace IrqBalance

open CString

/-! ### Lines of `/proc/interrupts` -/

/-- What the loops over `/proc/interrupts` make of a line. -/
inductive ProcLine
  /-- the first non-blank character is not a digit: leave the loop -/
  | stop
  /-- no colon: go on -/
  | skip
  /-- the number in front of the colon, and the text behind it -/
  | irq (number : ℤ) (rest : Text)

/-- The tests at the start of the loop bodies. -/
def procLine (line : Text) : ProcLine :=
  match line.dropWhile isBlank with
  | [] => .stop
  | c :: _ =>
    if !isDigit c then .stop
    else if !line.contains ':' then .skip
    else .irq (toInt (strtoul (line.takeWhile (· ≠ ':'))).1) (line.dropWhile (· ≠ ':')).tail

/-- What the loop bodies leave of a line: its colon is overwritten with a NUL. -/
def cutAtColon (line : Text) : Text := line.takeWhile (· ≠ ':')

/-! ### Hints for the irq database -/

/-- The last token of a line, as `collect_full_irq_list` cuts it out of `savedline`. A line that does
not fit `savedline` is not terminated there; a line with one token leaves `last_token` NULL. -/
def irqMod (line : Text) : Option Text :=
  if 1024 ≤ line.length then none
  else
    let tokens := strtok (· = ' ') line
    if tokens.length < 2 then none
    else tokens.getLast?.map fun tok => tok.takeWhile (· ≠ '\n')

/-- `check_platform_device`: the class it stores, if any. Its path buffer holds 512 bytes. -/
def checkPlatformDevice (platform : Text → Option (List Text)) (name : Text) (info : IrqInfo) :
    Option IrqInfo :=
  if 512 ≤ "/sys/devices/platform/".toList.length + name.length + 1 then none
  else match platform name with
    | none => some info
    | some entries =>
      let starts (p : String) (e : Text) : Bool := p.toList.isPrefixOf e
      match entries.find? fun e => starts "ata" e || starts "net" e || starts "usb" e with
      | none => some info
      | some e =>
        let cls : IrqClass :=
          if starts "ata" e then .scsi else if starts "net" e then .eth else .other
        some { info with type := .legacy, irqClass := cls }

/-- A regular expression of the table `matches`, as the character classes that must occur in a row:
all of its expressions are of this kind, up to a leading or trailing `.*`. -/
abbrev Regex := List (Char → Bool)

/-- The expression that matches a fixed string. -/
def lit (t : String) : Regex := t.toList.map fun c d => c == d

/-- The expression matches at the start of the text. -/
def matchesAt : Regex → Text → Bool
  | [], _ => true
  | _ :: _, [] => false
  | p :: r, c :: t => p c && matchesAt r t

/-- `regexec(..) == 0`: the expression matches somewhere. -/
def regexec (r : Regex) (t : Text) : Bool := t.tails.any (matchesAt r)

/-- The table `matches`: expression, class, and whether `check_platform_device` refines it. -/
def irqMatches : List (Regex × IrqClass × Bool) :=
  [(lit "eth", .gbeth, false),
   (lit ".sd", .scsi, false),
   (lit ".vsp", .video, false),
   (lit ".csi2", .video, false),
   (lit ".display", .video, false),
   (lit ".video", .video, false),
   (lit ".hdmi", .video, false),
   (lit "rcar_vin", .video, false),
   (lit "pvrsrvkm", .video, false),
   (List.replicate 4 (fun c => isUpper c || isDigit c) ++ List.replicate 4 isHexLower, .other, true),
   (lit "PNP" ++ List.replicate 4 isHexLower, .other, true)]

/-- `guess_arm_irq_hints`. -/
def guessArmIrqHints (platform : Text → Option (List Text)) (name : Text) (info : IrqInfo) :
    Option IrqInfo :=
  irqMatches.foldlM (fun info m =>
    if regexec m.1 name then
      let info := { info with type := .legacy, irqClass := m.2.1 }
      if m.2.2 then checkPlatformDevice platform name info else some info
    else some info) info

/-- The `irq_info` made for a line. -/
def irqHint (platform : Text → Option (List Text)) (policy : HintPolicy) (number : ℤ) (line : Text) :
    Option IrqInfo := do
  let name ← irqMod line
  let info : IrqInfo := { irq := number }
  let info ← (if strstr name "xen-dyn-event".toList then
      some { info with type := .virtEvent, irqClass := .virtEvent }
    else guessArmIrqHints platform name info)
  some { info with hintPolicy := policy, name := some name }

/-- The loop of `collect_full_irq_list`. -/
def collectLoop (platform : Text → Option (List Text)) (policy : HintPolicy) :
    List Text → Option (List IrqInfo)
  | [] => some []
  | line :: ls =>
    match procLine line with
    | .stop => some []
    | .skip => collectLoop platform policy ls
    | .irq number _ => do
      let info ← irqHint platform policy number line
      let infos ← collectLoop platform policy ls
      some (info :: infos)

/-- `collect_full_irq_list`. -/
def collectFullIrqList (platform : Text → Option (List Text)) (file : Option Text) (s : State) :
    Option (List IrqInfo) :=
  match file with
  | none => some []
  | some text =>
    collectLoop platform s.opts.globalHintPolicy (loopBuffers s.opts.getlineKeeps cutAtColon text)

/-! ### Counters -/

/-- The loop over the columns: their sum modulo `2 ^ 64` and their number. The first argument bounds
the number of columns by the length of the text. -/
def sumColumns : ℕ → Text → UInt64 × ℕ
  | 0, _ => (0, 0)
  | n + 1, t =>
    let r := strtoul t
    if r.2 = t then (0, 0)
    else
      let rest := sumColumns n r.2
      (UInt64.ofNat r.1 + rest.1, rest.2 + 1)

/-- The loop of `parse_proc_interrupts`. -/
def parseInterruptsLoop : List Text → State → State
  | [], s => s
  | line :: ls, s =>
    match procLine line with
    | .stop => s
    | .skip => parseInterruptsLoop ls s
    | .irq number rest =>
      match getIrqInfo s number with
      | none => { s with needRescan := true }
      | some i =>
        let columns := sumColumns rest.length rest
        if columns.2 ≠ s.coreCount then { s with needRescan := true }
        else if columns.1 < (s.irqs i).irqCount then { s with needRescan := true }
        else
          parseInterruptsLoop ls (s.modIrq i fun info =>
            { info with lastIrqCount := info.irqCount, irqCount := columns.1 })

/-- `parse_proc_interrupts`. -/
def parseProcInterrupts (file : Option Text) (s : State) : State :=
  match file with
  | none => s
  | some text => parseInterruptsLoop (loopBuffers s.opts.getlineKeeps cutAtColon text) s

/-! ### Loads -/

/-- `assign_load_slice`. -/
def assignLoadSlice (loadSlice : UInt64) (i : IrqId) (s : State) : Option State :=
  some (s.modIrq i fun info =>
    let load := (info.irqCount - info.lastIrqCount) * loadSlice
    { info with load := if load = 0 then 1 else load })

/-- `get_parent_branch_irq_count_share`, with a bound on the depth of the recursion. Division by zero
is undefined. -/
def getParentBranchIrqCountShare (s : State) : ℕ → ObjId → Option UInt64
  | 0, _ => none
  | n + 1, d =>
    match (s.objs d).parent with
    | none => some (s.objs d).irqCount
    | some p => do
      let total ← getParentBranchIrqCountShare s n p
      if (s.objs p).children = [] then none
      else some (total / UInt64.ofNat (s.objs p).children.length + (s.objs d).irqCount)

/-- `get_children_branch_irq_count`, with a bound on the depth of the recursion. -/
def getChildrenBranchIrqCount (s : State) : ℕ → UInt64 → ObjId → Option UInt64
  | 0, _, _ => none
  | n + 1, total, d => do
    let total ← (s.objs d).children.foldlM (getChildrenBranchIrqCount s n) total
    some (total + (s.objs d).irqCount)

/-- `compute_irq_branch_load_share`. -/
def computeIrqBranchLoadShare (d : ObjId) (s : State) : Option State :=
  if (s.objs d).interrupts = [] then some s
  else do
    let own ← getParentBranchIrqCountShare s (depthBound s) d
    let local_irq_counts ← (s.objs d).children.foldlM (getChildrenBranchIrqCount s (depthBound s)) own
    let loadSlice := if local_irq_counts = 0 then 1 else (s.objs d).load / local_irq_counts
    forEachIrq (fun s => (s.objs d).interrupts) (assignLoadSlice loadSlice) s

/-- `accumulate_irq_count` over a list. -/
def sumIrqCounts (s : State) (l : List IrqId) : UInt64 :=
  l.foldl (fun acc i => acc + ((s.irqs i).irqCount - (s.irqs i).lastIrqCount)) 0

/-- `accumulate_interrupts`, with a bound on the depth of the recursion. -/
def accumulateInterrupts : ℕ → ObjId → State → Option State
  | 0, _, _ => none
  | n + 1, d, s => do
    let s ← (s.objs d).children.foldlM (fun s c => accumulateInterrupts n c s) s
    some (s.modObj d fun o => { o with irqCount := sumIrqCounts s o.interrupts })

/-- `accumulate_load` over a list. -/
def sumLoads (s : State) (l : List ObjId) : UInt64 := l.foldl (fun acc c => acc + (s.objs c).load) 0

/-- `set_load`, with a bound on the depth of the recursion. -/
def setLoad : ℕ → ObjId → State → Option State
  | 0, _, _ => none
  | n + 1, d, s =>
    if (s.objs d).children = [] then some s
    else do
      let s ← (s.objs d).children.foldlM (fun s c => setLoad n c s) s
      some (s.modObj d fun o => { o with load := sumLoads s o.children })

/-- `load * (NSEC_PER_SEC / HZ)`, computed in `double` and truncated. The quotient and the product
are kept in units of `2 ^ (-52)`; a product that does not fit saturates, as the AARCH64 conversion
does. -/
def ticksToNsec (hz : ℕ) (load : UInt64) : UInt64 :=
  let quotient := Round.ratio 53 (10 ^ 9 * 2 ^ 52) hz
  let product := Round.sig 53 (Round.sig 53 load.toNat * quotient)
  UInt64.ofNat (min (product / 2 ^ 52) (2 ^ 64 - 1))

/-- `%*u`: skip a number. -/
def scanU (t : Text) : Option (ℕ × Text) :=
  match scanDigits t with
  | (_, [], _) => none
  | _ => some (strtoul t)

/-- `sscanf(line, "%*s %*u %*u %*u %*u %*u %llu %llu", ..)`, when it stores both numbers. -/
def scanStatLine (line : Text) : Option (UInt64 × UInt64) := do
  let t := (line.dropWhile isSpace).dropWhile fun c => !isSpace c
  let (_, t) ← scanU t
  let (_, t) ← scanU t
  let (_, t) ← scanU t
  let (_, t) ← scanU t
  let (_, t) ← scanU t
  let (irqLoad, t) ← scanU t
  let (softirqLoad, _) ← scanU t
  some (UInt64.ofNat irqLoad, UInt64.ofNat softirqLoad)

/-- The loop of `parse_proc_stat`, with the variable `cpucount`. `cpu_isset` on a number outside the
mask is undefined. -/
def parseStatLoop : List Text → ℕ → State → Option (ℕ × State)
  | [], cpucount, s => some (cpucount, s)
  | line :: ls, cpucount, s =>
    if !strstr line "cpu".toList then some (cpucount, s)
    else
      let cpunr := toInt (strtoul (line.drop 3)).1
      if cpunr < 0 ∨ nrCpus ≤ cpunr then none
      else if s.bannedCpus.getLsbD cpunr.toNat then parseStatLoop ls cpucount s
      else match scanStatLine line with
        | none => some (cpucount, s)
        | some (irqLoad, softirqLoad) =>
          match findCpuCore s cpunr with
          | none => some (cpucount, s)
          | some cpu =>
            let sum := irqLoad + softirqLoad
            parseStatLoop ls (cpucount + 1) (s.modObj cpu fun o =>
              { o with
                load := if s.cycleCount = 0 then o.load
                  else ticksToNsec s.opts.hz (sum - o.lastLoad)
                lastLoad := sum })

/-- The part of `parse_proc_stat` behind the count of the cpus. -/
def aggregateStat (s : State) : Option State := do
  let s ← s.numaNodes.foldlM (fun s d => setLoad (depthBound s) d s) s
  let s ← s.numaNodes.foldlM (fun s d => accumulateInterrupts (depthBound s) d s) s
  let s ← s.cpus.foldlM (fun s d => computeIrqBranchLoadShare d s) s
  let s ← s.cacheDomains.foldlM (fun s d => computeIrqBranchLoadShare d s) s
  let s ← s.packages.foldlM (fun s d => computeIrqBranchLoadShare d s) s
  s.numaNodes.foldlM (fun s d => computeIrqBranchLoadShare d s) s

/-- `parse_proc_stat`. -/
def parseProcStat (file : Option Text) (s : State) : Option State :=
  match file with
  | none => some s
  | some text => do
    let r ← parseStatLoop (loopBuffers s.opts.getlineKeeps id text) 0 s
    if r.1 ≠ r.2.cpus.length then some r.2 else aggregateStat r.2

end IrqBalance
