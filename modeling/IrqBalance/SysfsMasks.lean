import Mathlib.Data.List.ReduceOption
import IrqBalance.Forest

/-!
# Masks and the stack

`do_one_cpu` sets one bit of `package_mask`, which is not initialized, and reads `core_siblings` into it if
there is such a file. Otherwise the other bits are what the stack holds. `cache_mask` is cleared first, and
the search for the deepest cache ends at the first index that is missing. `masks_of_sysfs_iff` says when the
masks, and with them the tree, are those of the files.
-/

namespace IrqBalance

open CString

variable {s s' : State} {fs fs' : CpuSysfs} {d : CpuDir} {banned unbanned : Cpumask}

/-- The directory, whatever `package_mask` holds at first. -/
def CpuDir.sansStack (d : CpuDir) : CpuDir := { d with stack := 0 }

/-- The same files, whatever `package_mask` holds at first. -/
def CpuSysfs.sansStack (fs : CpuSysfs) : CpuSysfs :=
  { fs with cpuDir := fs.cpuDir.map (List.map CpuDir.sansStack) }

/-! ### The masks that the files give -/

/-- The mask in the first line of a file. -/
def lineMask (text : Text) : Cpumask := cpumaskParseUser (firstLine text)

/-- The mask in `topology/core_siblings`, or the solitary mask if there is no such file. -/
def CpuDir.siblings (d : CpuDir) : Cpumask := (d.coreSiblings.map lineMask).getD d.mask

/-- The mask in a file that `stat` has found, or the solitary mask if there is none or it cannot be opened. -/
def CpuDir.mapMask (d : CpuDir) (file : Option (Option Text)) : Cpumask := (file.join.map lineMask).getD d.mask

/-- The files `cache/indexN/shared_cpu_map` up to the index `deepest`, `none` for one that is missing: those
that `stat` finds one after the other, and `behind` the first one that is missing. -/
def CpuDir.sharedFiles (d : CpuDir) (behind : List (Option (Option Text))) (deepest : ℕ) :
    List (Option (Option Text)) :=
  (d.sharedCpuMaps.map some ++ none :: behind).take deepest

/-- The deepest of some files that is present. -/
def deepestPresent (files : List (Option (Option Text))) : Option (Option Text) := files.reduceOption.getLast?

/-- The masks that are used are those of the files, without the banned cpus. The directory `dName` holds the
files `behind dName` behind the first index that is missing. -/
structure MasksRight (behind : Text → List (Option (Option Text))) (fs : CpuSysfs) (opts : Options) : Prop where
  package : ∀ d ∈ fs.added, fs.packageMask d = d.siblings &&& ~~~setupBannedCpus fs
  cache : ∀ d ∈ fs.added, fs.cacheMask opts d =
    d.mapMask (deepestPresent (d.sharedFiles (behind d.dName) opts.deepestCache)) &&& ~~~setupBannedCpus fs

/-! ### The cache mask -/

/-- The search ends at the first index that is missing, or at `deepest`. -/
theorem maxCacheIndexFrom_eq (deepest index : ℕ) (maps : List (Option Text)) (hindex : 1 ≤ index)
    (hle : index ≤ deepest) : maxCacheIndexFrom deepest index maps = min deepest (index - 1 + maps.length) := by
  induction maps generalizing index with
  | nil =>
    rw [maxCacheIndexFrom, List.length_nil]
    omega
  | cons map maps ih =>
    rw [maxCacheIndexFrom, List.length_cons]
    split_ifs with hlast
    · omega
    · rw [ih (index + 1) (by omega) (by omega)]
      omega

/-- `cache_mask` is that of the last file up to `deepest` in front of the first missing one. -/
theorem sharedCpuMask_eq (d : CpuDir) {deepest : ℕ} (hdeepest : deepest ≠ 0) :
    d.sharedCpuMask deepest = d.mapMask (d.sharedCpuMaps.take deepest).getLast? := by
  rw [CpuDir.sharedCpuMask, maxCacheIndexFrom_eq deepest 1 _ le_rfl (by omega), List.getLast?_eq_getElem?,
    List.length_take, Nat.sub_self, Nat.zero_add]
  cases hindex : min deepest d.sharedCpuMaps.length with
  | zero =>
    have hnil : d.sharedCpuMaps.take deepest = [] := by
      rw [← List.length_eq_zero_iff, List.length_take, hindex]
    rw [hnil]
    rfl
  | succ index =>
    rw [Nat.add_sub_cancel, List.getElem?_take_of_lt (by omega)]
    rcases hfile : d.sharedCpuMaps[index]? with _ | _ | text <;> simp [hfile, CpuDir.mapMask, lineMask]

/-- No file behind the first missing one, up to `deepest`, is present; or the deepest one of these has the same
cpus as the last one in front. -/
def CpuDir.MapsRegular (d : CpuDir) (behind : List (Option (Option Text))) (deepest : ℕ) (unbanned : Cpumask) :
    Prop :=
  (∀ file ∈ behind.take (deepest - (d.sharedCpuMaps.length + 1)), file = none) ∨
    d.mapMask (deepestPresent (behind.take (deepest - (d.sharedCpuMaps.length + 1)))) &&& unbanned =
      d.mapMask (d.sharedCpuMaps.take deepest).getLast? &&& unbanned

theorem reduceOption_sharedFiles (d : CpuDir) (behind : List (Option (Option Text))) (deepest : ℕ) :
    (d.sharedFiles behind deepest).reduceOption = d.sharedCpuMaps.take deepest ++
      (behind.take (deepest - (d.sharedCpuMaps.length + 1))).reduceOption := by
  have hfront : ((d.sharedCpuMaps.take deepest).map some).reduceOption = d.sharedCpuMaps.take deepest := by
    rw [List.reduceOption, List.filterMap_map]
    exact List.filterMap_some
  have hbehind : ((none :: behind).take (deepest - d.sharedCpuMaps.length)).reduceOption =
      (behind.take (deepest - (d.sharedCpuMaps.length + 1))).reduceOption := by
    rw [← Nat.sub_sub]
    cases deepest - d.sharedCpuMaps.length with
    | zero => rfl
    | succ k => rw [List.take_succ_cons, List.reduceOption_cons_of_none, Nat.add_sub_cancel]
  rw [CpuDir.sharedFiles, List.take_append, List.length_map, List.reduceOption_append, ← List.map_take, hfront,
    hbehind]

/-- **The cache mask is that of the deepest file that is present if and only if the files are regular.** -/
theorem sharedCpuMask_eq_iff (d : CpuDir) (behind : List (Option (Option Text))) {deepest : ℕ}
    (hdeepest : deepest ≠ 0) (unbanned : Cpumask) : d.sharedCpuMask deepest &&& unbanned =
      d.mapMask (deepestPresent (d.sharedFiles behind deepest)) &&& unbanned ↔
        d.MapsRegular behind deepest unbanned := by
  rw [sharedCpuMask_eq d hdeepest, deepestPresent, reduceOption_sharedFiles, List.getLast?_append,
    CpuDir.MapsRegular, deepestPresent]
  by_cases hnone : ∀ file ∈ behind.take (deepest - (d.sharedCpuMaps.length + 1)), file = none
  · have hnil : (behind.take (deepest - (d.sharedCpuMaps.length + 1))).reduceOption = [] := by
      rw [List.eq_nil_iff_forall_not_mem]
      intro file hfile
      cases hnone _ (List.reduceOption_mem_iff.1 hfile)
    rw [hnil]
    exact iff_of_true rfl (Or.inl hnone)
  · have hne : (behind.take (deepest - (d.sharedCpuMaps.length + 1))).reduceOption ≠ [] := by
      intro hnil
      apply hnone
      intro file hfile
      cases file with
      | none => rfl
      | some text =>
        have hmem := List.reduceOption_mem_iff.2 hfile
        rw [hnil] at hmem
        cases hmem
    rw [List.getLast?_eq_some_getLast hne, Option.some_or, or_iff_right hnone]
    exact eq_comm

/-! ### The package mask -/

/-- The files give the package mask of a cpu if it has `core_siblings`, or if it is the only unbanned cpu. -/
def CpuDir.SiblingsKnown (d : CpuDir) (unbanned : Cpumask) : Prop :=
  d.coreSiblings ≠ none ∨ unbanned &&& ~~~d.mask = 0

/-- Without `core_siblings` the bits on the stack count, but for those of banned cpus. -/
theorem coreSiblingsMask_eq (hd : d.SiblingsKnown unbanned) :
    d.coreSiblingsMask &&& unbanned = d.siblings &&& unbanned := by
  unfold CpuDir.coreSiblingsMask CpuDir.siblings
  cases htext : d.coreSiblings with
  | some text => rfl
  | none =>
    have hsole := hd.resolve_left (not_not_intro htext)
    apply BitVec.eq_of_getLsbD_eq
    intro i hi
    have hbit := congrArg (fun b => b.getLsbD i) hsole
    simp [hi] at hbit ⊢
    cases hu : unbanned[i] with
    | false => simp
    | true => simp [hbit hu]

/-- The directory, over another stack. -/
def CpuDir.withStack (stack : Cpumask) (d : CpuDir) : CpuDir := { d with stack := stack }

/-- And then they do count. -/
theorem siblingsKnown_of_all
    (hall : ∀ stack, (d.withStack stack).coreSiblingsMask &&& unbanned = d.siblings &&& unbanned) :
    d.SiblingsKnown unbanned := by
  have hd := hall cpuMaskAll
  unfold CpuDir.coreSiblingsMask CpuDir.siblings CpuDir.withStack at hd
  cases htext : d.coreSiblings with
  | some text => exact Or.inl (by rw [htext]; simp)
  | none =>
    right
    rw [htext] at hd
    apply BitVec.eq_of_getLsbD_eq
    intro i hi
    have hbit := congrArg (fun b => b.getLsbD i) hd
    simp [hi, cpuMaskAll, CpuDir.mask] at hbit ⊢
    exact hbit

/-! ### The tree -/

/-- The masks of the banned and of the unbanned cpus. -/
def State.cpuMasks (s : State) : Cpumask × Cpumask := (s.bannedCpus, s.unbannedCpus)

/-- `do_one_cpu` does not write these masks. -/
theorem doOneCpu_cpuMasks (h : doOneCpu d s = some s') : s'.cpuMasks = s.cpuMasks :=
  show s'.sansTree.cpuMasks = s.sansTree.cpuMasks by rw [doOneCpu_sansTree h]

/-- Where the files give the package masks the stack makes no difference. -/
theorem doOneCpu_sansStack (hs : s.cpuMasks = (banned, ~~~banned))
    (hd : d.isAdded banned = true → d.SiblingsKnown (~~~banned)) : doOneCpu d.sansStack s = doOneCpu d s := by
  obtain ⟨rfl, hunbanned⟩ := Prod.mk.inj hs
  have hadd : d.isAdded s.bannedCpus = true → addCpu d.sansStack s = addCpu d s := by
    intro hadded
    have hknown := hd hadded
    have hmask : d.sansStack.coreSiblingsMask &&& s.unbannedCpus = d.coreSiblingsMask &&& s.unbannedCpus := by
      rw [hunbanned, coreSiblingsMask_eq hknown, coreSiblingsMask_eq (d := d.sansStack) hknown]
      rfl
    unfold addCpu
    rw [hmask]
    rfl
  unfold doOneCpu
  change (if !d.isOnline then _ else if d.number < 0 ∨ nrCpus ≤ d.number then _ else if cpusIntersects d.mask _
    then _ else _) = _
  split_ifs with honline hrange hbanned
  · rfl
  · rfl
  · rfl
  · rw [hadd (by simp_all [CpuDir.isAdded])]

theorem parseCpuTree_sansStack (h : ∀ d ∈ fs.added, d.SiblingsKnown (~~~setupBannedCpus fs)) (s : State) :
    parseCpuTree fs.sansStack s = parseCpuTree fs s := by
  have hbanned : setupBannedCpus fs.sansStack = setupBannedCpus fs := rfl
  unfold parseCpuTree
  rw [hbanned]
  cases hdir : fs.cpuDir with
  | none =>
    have hdir' : fs.sansStack.cpuDir = none := by rw [CpuSysfs.sansStack, hdir, Option.map_none]
    rw [hdir']
  | some dirs =>
    have hdir' : fs.sansStack.cpuDir = some (dirs.map CpuDir.sansStack) := by
      rw [CpuSysfs.sansStack, hdir, Option.map_some]
    have hfilter : (dirs.map CpuDir.sansStack).filter isCpuDir = (dirs.filter isCpuDir).map CpuDir.sansStack :=
      List.filter_map
    rw [hdir']
    dsimp only
    rw [hfilter, List.foldlM_map]
    have hrel : Option.Rel (fun u v => u = v ∧ u.cpuMasks = (setupBannedCpus fs, ~~~setupBannedCpus fs))
        ((dirs.filter isCpuDir).foldlM (fun u d => doOneCpu d.sansStack u)
          { s with bannedCpus := setupBannedCpus fs, unbannedCpus := ~~~setupBannedCpus fs })
        ((dirs.filter isCpuDir).foldlM (fun u d => doOneCpu d u)
          { s with bannedCpus := setupBannedCpus fs, unbannedCpus := ~~~setupBannedCpus fs }) := by
      apply Loops.foldlM_rel _ ⟨rfl, rfl⟩
      rintro d hd u _ ⟨rfl, hu⟩
      have hadded : d.isAdded (setupBannedCpus fs) = true → d ∈ fs.added := fun hadded =>
        List.mem_filter.2 ⟨by rw [hdir]; exact hd, hadded⟩
      rw [doOneCpu_sansStack hu fun hin => h d (hadded hin)]
      cases hstep : doOneCpu d u with
      | none => exact .none
      | some u' => exact .some ⟨rfl, (doOneCpu_cpuMasks hstep).trans hu⟩
    generalize (dirs.filter isCpuDir).foldlM (fun u d => doOneCpu d.sansStack u) _ = x at hrel ⊢
    generalize (dirs.filter isCpuDir).foldlM (fun u d => doOneCpu d u) _ = y at hrel ⊢
    cases hrel with
    | none => rfl
    | some h => rw [h.1]

/-! ### What the files determine -/

/-- The stack has nothing to do with which directories are added. -/
theorem added_map (f : CpuDir → CpuDir) (hname : ∀ d, isCpuDir (f d) = isCpuDir d)
    (hadded : ∀ banned d, (f d).isAdded banned = d.isAdded banned) (fs : CpuSysfs) :
    CpuSysfs.added { fs with cpuDir := fs.cpuDir.map (List.map f) } = fs.added.map f := by
  have hdirs : (fs.cpuDir.map (List.map f)).getD [] = (fs.cpuDir.getD []).map f := by
    cases fs.cpuDir <;> rfl
  have hcomp : isCpuDir ∘ f = isCpuDir := funext hname
  have hcomp' : ∀ banned, CpuDir.isAdded banned ∘ f = CpuDir.isAdded banned := fun banned => funext (hadded banned)
  rw [CpuSysfs.added, hdirs, List.filter_map, List.filter_map, hcomp, hcomp']
  rfl

theorem added_sansStack (fs : CpuSysfs) : fs.sansStack.added = fs.added.map CpuDir.sansStack :=
  added_map CpuDir.sansStack (fun _ => rfl) (fun _ _ => rfl) fs

/-- The same files, over another stack. -/
def CpuSysfs.withStack (stack : Cpumask) (fs : CpuSysfs) : CpuSysfs :=
  { fs with cpuDir := fs.cpuDir.map (List.map (CpuDir.withStack stack)) }

theorem added_withStack (stack : Cpumask) (fs : CpuSysfs) :
    (fs.withStack stack).added = fs.added.map (CpuDir.withStack stack) :=
  added_map (CpuDir.withStack stack) (fun _ => rfl) (fun _ _ => rfl) fs

theorem withStack_sansStack (stack : Cpumask) (fs : CpuSysfs) : (fs.withStack stack).sansStack = fs.sansStack := by
  unfold CpuSysfs.withStack CpuSysfs.sansStack
  cases fs.cpuDir with
  | none => rfl
  | some dirs =>
    dsimp only [Option.map_some]
    rw [List.map_map]
    rfl

/-- Over the same files the same directories are added. -/
theorem exists_added (h : fs'.sansStack = fs.sansStack) (hd : d ∈ fs'.added) :
    ∃ d₀ ∈ fs.added, d₀.sansStack = d.sansStack := by
  rw [← List.mem_map, ← added_sansStack, ← h, added_sansStack]
  exact List.mem_map_of_mem hd

/-- **The masks and the tree are those of the files, whatever the stack holds, if and only if each cpu that is
added has `core_siblings` or is the only unbanned cpu, and no cache file is hidden behind a missing one.** -/
theorem masks_of_sysfs_iff (fs : CpuSysfs) (behind : Text → List (Option (Option Text))) (s : State)
    (hdeepest : s.opts.deepestCache ≠ 0) :
    (∀ fs' : CpuSysfs, fs'.sansStack = fs.sansStack →
      MasksRight behind fs' s.opts ∧ parseCpuTree fs' s = parseCpuTree fs s) ↔
    ∀ d ∈ fs.added, d.SiblingsKnown (~~~setupBannedCpus fs) ∧
      d.MapsRegular (behind d.dName) s.opts.deepestCache (~~~setupBannedCpus fs) := by
  constructor
  · intro h d hd
    constructor
    · apply siblingsKnown_of_all
      intro stack
      have hadded : d.withStack stack ∈ (fs.withStack stack).added := by
        rw [added_withStack]
        exact List.mem_map_of_mem hd
      exact (h (fs.withStack stack) (withStack_sansStack _ fs)).1.package _ hadded
    · rw [← sharedCpuMask_eq_iff d _ hdeepest]
      exact (h fs rfl).1.cache d hd
  · intro h fs' hsame
    have hbanned : setupBannedCpus fs' = setupBannedCpus fs :=
      show setupBannedCpus fs'.sansStack = setupBannedCpus fs.sansStack by rw [hsame]
    have hfiles : ∀ d ∈ fs'.added, d.SiblingsKnown (~~~setupBannedCpus fs') ∧
        d.MapsRegular (behind d.dName) s.opts.deepestCache (~~~setupBannedCpus fs') := by
      intro d hd
      obtain ⟨d₀, hd₀, e⟩ := exists_added hsame hd
      have hsans : d₀.sansStack.SiblingsKnown (~~~setupBannedCpus fs) ∧
          d₀.sansStack.MapsRegular (behind d₀.sansStack.dName) s.opts.deepestCache (~~~setupBannedCpus fs) := h d₀ hd₀
      rw [e] at hsans
      rw [hbanned]
      exact hsans
    refine ⟨⟨fun d hd => coreSiblingsMask_eq (hfiles d hd).1, fun d hd =>
      (sharedCpuMask_eq_iff d _ hdeepest _).2 (hfiles d hd).2⟩, ?_⟩
    rw [← parseCpuTree_sansStack (fun d hd => (hfiles d hd).1), hsame, parseCpuTree_sansStack fun d hd => (h d hd).1]

/-- The command line leaves a `deepest_cache` other than 0. -/
theorem parseCommandLine_deepestCache {opts opts' : Options} {args : List Opt}
    (h : parseCommandLine opts args = some opts') (hopts : opts.deepestCache ≠ 0) : opts'.deepestCache ≠ 0 := by
  apply Loops.foldlM_inv (fun opts : Options => opts.deepestCache ≠ 0) _ hopts h
  intro opt _ o o' ho hparse
  cases opt with
  | deepestCache arg =>
    dsimp only [parseOpt] at hparse
    split_ifs at hparse with hn
    cases hparse
    dsimp only
    omega
  | hintPolicy arg =>
    dsimp only [parseOpt] at hparse
    split_ifs at hparse <;> cases hparse <;> exact ho
  | banIrq arg =>
    dsimp only [parseOpt, addClBannedIrq] at hparse
    split_ifs at hparse <;> cases hparse <;> exact ho
  | policyScript => cases hparse; exact ho
  | banMod arg =>
    dsimp only [parseOpt, addClBannedModule] at hparse
    split_ifs at hparse <;> cases hparse <;> exact ho
  | powerThresh arg =>
    dsimp only [parseOpt] at hparse
    split_ifs at hparse <;> cases hparse <;> exact ho
  | banIrqName arg => cases hparse; exact ho

/-- Two cpus that report each other. -/
def twoSiblings : CpuSysfs where
  cpuDir := some [{ dName := "cpu0".toList, coreSiblings := some ['3'] },
    { dName := "cpu1".toList, coreSiblings := some ['3'] }]

theorem masks_of_sysfs_iff_twoSiblings : ∃ opts, parseCommandLine {} [.deepestCache ['3']] = some opts ∧
    ∀ fs' : CpuSysfs, fs'.sansStack = twoSiblings.sansStack → MasksRight (fun _ => []) fs' opts ∧
      parseCpuTree fs' (State.initial opts fun _ => 0) = parseCpuTree twoSiblings (State.initial opts fun _ => 0) := by
  have hparse : (parseCommandLine {} [.deepestCache ['3']]).isSome = true := by decide
  obtain ⟨opts, hopts⟩ := Option.isSome_iff_exists.1 hparse
  have hdeepest : opts.deepestCache ≠ 0 := parseCommandLine_deepestCache hopts (by decide)
  have hknown : ∀ d ∈ twoSiblings.added, d.coreSiblings ≠ none := by
    intro d hd
    have hdir := (List.mem_filter.1 (List.mem_filter.1 hd).1).1
    simp only [twoSiblings, Option.getD_some, List.mem_cons, List.not_mem_nil, or_false] at hdir
    rcases hdir with rfl | rfl <;> exact Option.some_ne_none _
  exact ⟨opts, hopts, (masks_of_sysfs_iff twoSiblings (fun _ => []) (State.initial opts fun _ => 0) hdeepest).2
    fun d hd => ⟨Or.inl (hknown d hd), Or.inl (by simp)⟩⟩

/-- Without `core_siblings` two cpus are in one package or in two. -/
theorem masks_depend_on_stack : ¬ ∀ (fs : CpuSysfs) (behind : Text → List (Option (Option Text))) (s : State),
    s.opts.deepestCache ≠ 0 → ∀ fs' : CpuSysfs, fs'.sansStack = fs.sansStack →
      MasksRight behind fs' s.opts ∧ parseCpuTree fs' s = parseCpuTree fs s := by
  intro h
  have htree := (h twoCpus (fun _ => []) (buildNumaNodeList none (State.initial {} fun _ => 0)) (by decide)
    (twoCpus.withStack 3) (withStack_sansStack 3 twoCpus)).2
  have hone : (parseCpuTree (twoCpus.withStack 3) (buildNumaNodeList none (State.initial {} fun _ => 0))).map
      (fun s => s.packages.length) = some 1 := by
    decide +kernel
  have htwo : (parseCpuTree twoCpus (buildNumaNodeList none (State.initial {} fun _ => 0))).map
      (fun s => s.packages.length) = some 2 := by
    decide +kernel
  rw [htree, htwo] at hone
  cases hone

end IrqBalance
